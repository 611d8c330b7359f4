import Mathlib.Logic.Relation
import ScriptHost.Pattern.Automaton

/-!
# What machines of patterns accept

`Expr.Spans` says what a pattern matches without any machine: the text between two points.  The machine of a pattern
accepts a text if and only if the pattern spans it (`Expr.matchesAll_program`).  One half is about the code
(`accepts_of_spans`, `spans_of_accepts`): the code of a pattern leads to the place where it goes on, and there is no
other way out of it.  The other half is about the run (`Program.runFrom_iff`): the places that are kept are those that
can be reached, since the loop that follows them has enough fuel for all of them.
-/

namespace ScriptHost.Pattern

variable {α : Type}

/-! ### Patterns -/

/-- A point between two items of a text. -/
structure Point (α : Type) where
  before : Option α
  rest : List α

/-- A pattern matches the text between two points. -/
inductive Expr.Spans : Expr α → Point α → Point α → Prop where
  | empty {p} : Spans .empty p p
  | item {f b x rest} (hx : f x = true) : Spans (.item f) ⟨b, x :: rest⟩ ⟨some x, rest⟩
  | look {f p} (hp : f p.before p.rest.head? = true) : Spans (.look f) p p
  | seq {a b p q r} : Spans a p q → Spans b q r → Spans (.seq a b) p r
  | first {a b p q} : Spans a p q → Spans (.alt a b) p q
  | second {a b p q} : Spans b p q → Spans (.alt a b) p q
  | done {a p} : Spans (.star a) p p
  | more {a p q r} : Spans a p q → Spans (.star a) q r → Spans (.star a) p r

/-- Several patterns match together what one of them matches. -/
private theorem Expr.spans_alts_iff {es : List (Expr α)} {p q : Point α} :
    (Expr.alts es).Spans p q ↔ ∃ e ∈ es, e.Spans p q := by
  induction es with
  | nil =>
    refine ⟨fun h => ?_, fun ⟨e, he, _⟩ => absurd he List.not_mem_nil⟩
    cases h
  | cons e es ih =>
    cases es with
    | nil => simp [alts]
    | cons e' es =>
      simp only [List.mem_cons, exists_eq_or_imp] at ih ⊢
      rw [← ih]
      show (Expr.alt e (alts (e' :: es))).Spans p q ↔ _
      constructor
      · intro h
        cases h with
        | first h => exact .inl h
        | second h => exact .inr h
      · rintro (h | h)
        · exact .first h
        · exact .second h

/-! ### Code -/

/-- An instruction leads on from a point, to a place in the code and a point. -/
inductive Instr.Leads : Instr α → Point α → Nat → Point α → Prop where
  | read {f next b x rest} (hx : f x = true) : Leads (.read f next) ⟨b, x :: rest⟩ next ⟨some x, rest⟩
  | look {f next p} (hp : f p.before p.rest.head? = true) : Leads (.look f next) p next p
  | next {next other p} : Leads (.split next other) p next p
  | other {next other p} : Leads (.split next other) p other p

/-- From a place and a point, some run of `n` steps ends in acceptance at the end of the text. -/
inductive AcceptsIn (code : Code α) : Nat → Nat → Point α → Prop where
  | here {i b} (hi : code[i]? = some .accept) : AcceptsIn code 0 i ⟨b, []⟩
  | step {i instr p j q n} (hi : code[i]? = some instr) (hinstr : instr.Leads p j q) (h : AcceptsIn code n j q) :
    AcceptsIn code (n + 1) i p

/-- From a place and a point, some run ends in acceptance at the end of the text. -/
def Accepts (code : Code α) (i : Nat) (p : Point α) : Prop := ∃ n, AcceptsIn code n i p

private theorem Accepts.step {code : Code α} {i j : Nat} {instr : Instr α} {p q : Point α} (hi : code[i]? = some instr)
    (hinstr : instr.Leads p j q) (h : Accepts code j q) : Accepts code i p := by
  obtain ⟨n, hn⟩ := h
  exact ⟨n + 1, .step hi hinstr hn⟩

/-- A run goes on as its first instruction says. -/
private theorem AcceptsIn.leads {code : Code α} {i n : Nat} {p : Point α} {instr : Instr α} (h : AcceptsIn code n i p)
    (hi : code[i]? = some instr) (hne : instr ≠ .accept) :
    ∃ m j q, n = m + 1 ∧ instr.Leads p j q ∧ AcceptsIn code m j q := by
  cases h with
  | here haccept => exact absurd (Option.some.inj (hi.symm.trans haccept)) hne
  | step hstep hinstr h =>
    obtain rfl := Option.some.inj (hi.symm.trans hstep)
    exact ⟨_, _, _, rfl, hinstr, h⟩

private theorem AcceptsIn.split {code : Code α} {i next other n : Nat} {p : Point α} (h : AcceptsIn code n i p)
    (hi : code[i]? = some (.split next other)) :
    ∃ m, n = m + 1 ∧ (AcceptsIn code m next p ∨ AcceptsIn code m other p) := by
  obtain ⟨m, j, q, rfl, hinstr, h⟩ := h.leads hi nofun
  cases hinstr with
  | next => exact ⟨m, rfl, .inl h⟩
  | other => exact ⟨m, rfl, .inr h⟩

namespace Expr

variable {next start : Nat} {code code' full : Code α} {e : Expr α}

private theorem size_le_compile (e : Expr α) (next : Nat) (code : Code α) : code.size ≤
    (e.compile next code).2.size := by
  induction e generalizing next code with
  | empty => exact Nat.le_refl _
  | nothing => simp [compile]
  | item f => simp [compile]
  | look f => simp [compile]
  | seq a b iha ihb => exact Nat.le_trans (ihb ..) (iha ..)
  | alt a b iha ihb =>
    have ha := iha next code
    have hb := ihb next (a.compile next code).2
    simp only [compile, Array.size_push]
    omega
  | star a ih =>
    have ha := ih code.size (code.push .stuck)
    simp only [compile, Array.size_setIfInBounds, Array.size_push] at ha ⊢
    omega

/-- Code is only added. -/
private theorem getElem?_compile (e : Expr α) (next : Nat) {code : Code α} {i : Nat} (hi : i < code.size) :
    (e.compile next code).2[i]? = code[i]? := by
  induction e generalizing next code with
  | empty => rfl
  | nothing => simp [compile, Array.getElem?_push, Nat.ne_of_lt hi]
  | item f => simp [compile, Array.getElem?_push, Nat.ne_of_lt hi]
  | look f => simp [compile, Array.getElem?_push, Nat.ne_of_lt hi]
  | seq a b iha ihb =>
    have hb := size_le_compile b next code
    exact (iha _ (by omega)).trans (ihb _ hi)
  | alt a b iha ihb =>
    have ha := size_le_compile a next code
    have hb := size_le_compile b next (a.compile next code).2
    simp only [compile, Array.getElem?_push]
    rw [if_neg (by omega), ihb _ (by omega), iha _ hi]
  | star a ih =>
    have hpush : i < (code.push Instr.stuck).size := by simp; omega
    simp only [compile, Array.getElem?_setIfInBounds]
    rw [if_neg (by omega), ih _ hpush, Array.getElem?_push, if_neg (by omega)]

/-- Some code has the code of a pattern in its place. -/
def CodeIn (full code code' : Code α) : Prop := ∀ i, code.size ≤ i → i < code'.size → full[i]? = code'[i]?

private theorem CodeIn.push {instr : Instr α} (hin : CodeIn full code (code.push instr)) :
    full[code.size]? = some instr := by
  rw [hin _ (Nat.le_refl _) (by simp), Array.getElem?_push, if_pos rfl]

private theorem CodeIn.seq {a b : Expr α} (hin : CodeIn full code ((Expr.seq a b).compile next code).2) :
    CodeIn full (b.compile next code).2 (a.compile (b.compile next code).1 (b.compile next code).2).2 ∧
      CodeIn full code (b.compile next code).2 := by
  have ha := size_le_compile a (b.compile next code).1 (b.compile next code).2
  have hb := size_le_compile b next code
  refine ⟨fun i hi hi' => hin i (by omega) hi', fun i hi hi' => ?_⟩
  rw [hin i hi (Nat.lt_of_lt_of_le hi' ha)]
  exact getElem?_compile a _ hi'

private theorem CodeIn.alt {a b : Expr α} (hin : CodeIn full code ((Expr.alt a b).compile next code).2) :
    CodeIn full code (a.compile next code).2 ∧
      CodeIn full (a.compile next code).2 (b.compile next (a.compile next code).2).2 ∧
      full[((Expr.alt a b).compile next code).1]? =
        some (.split (a.compile next code).1 (b.compile next (a.compile next code).2).1) := by
  have ha := size_le_compile a next code
  have hb := size_le_compile b next (a.compile next code).2
  simp only [compile] at hin ⊢
  refine ⟨fun i hi hi' => ?_, fun i hi hi' => ?_, ?_⟩
  · rw [hin i hi (by simp; omega), Array.getElem?_push, if_neg (by omega), getElem?_compile b _ hi']
  · rw [hin i (by omega) (by simp; omega), Array.getElem?_push, if_neg (by omega)]
  · rw [hin _ (by omega) (by simp), Array.getElem?_push, if_pos rfl]

private theorem CodeIn.star {a : Expr α} (hin : CodeIn full code ((Expr.star a).compile next code).2) :
    CodeIn full (code.push .stuck) (a.compile code.size (code.push .stuck)).2 ∧
      full[code.size]? = some (.split (a.compile code.size (code.push .stuck)).1 next) := by
  have ha := size_le_compile a code.size (code.push .stuck)
  rw [Array.size_push] at ha
  simp only [compile] at hin
  refine ⟨fun i hi hi' => ?_, ?_⟩
  · rw [Array.size_push] at hi
    rw [hin i (by omega) (by simpa using hi'), Array.getElem?_setIfInBounds, if_neg (by omega)]
  · rw [hin _ (Nat.le_refl _) (by simp; omega), Array.getElem?_setIfInBounds, if_pos rfl, if_pos (by omega)]

/-- What a pattern spans, its code runs through. -/
theorem accepts_of_spans {p q : Point α} (h : e.Spans p q) (hc : e.compile next code = (start, code'))
    (hin : CodeIn full code code') (hq : Accepts full next q) : Accepts full start p := by
  induction h generalizing next code start code' with
  | empty =>
    obtain ⟨rfl, rfl⟩ := Prod.mk.inj hc
    exact hq
  | item hx =>
    obtain ⟨rfl, rfl⟩ := Prod.mk.inj hc
    exact hq.step hin.push (.read hx)
  | look hp =>
    obtain ⟨rfl, rfl⟩ := Prod.mk.inj hc
    exact hq.step hin.push (.look hp)
  | @seq a b p q r ha hb iha ihb =>
    obtain ⟨rfl, rfl⟩ := Prod.mk.inj hc
    obtain ⟨hina, hinb⟩ := hin.seq
    exact iha rfl hina (ihb rfl hinb hq)
  | @first a b p q ha iha =>
    obtain ⟨rfl, rfl⟩ := Prod.mk.inj hc
    obtain ⟨hina, hinb, hsplit⟩ := hin.alt
    exact (iha rfl hina hq).step hsplit .next
  | @second a b p q hb ihb =>
    obtain ⟨rfl, rfl⟩ := Prod.mk.inj hc
    obtain ⟨hina, hinb, hsplit⟩ := hin.alt
    exact (ihb rfl hinb hq).step hsplit .other
  | @done a p =>
    obtain ⟨rfl, rfl⟩ := Prod.mk.inj hc
    obtain ⟨hina, hsplit⟩ := hin.star
    exact hq.step hsplit .other
  | @more a p q r ha hs iha ihs =>
    have hrepeat : Accepts full start q := ihs hc hin hq
    obtain ⟨rfl, rfl⟩ := Prod.mk.inj hc
    obtain ⟨hina, hsplit⟩ := hin.star
    exact (iha rfl hina hrepeat).step hsplit .next

/-- A run that enters the code of a pattern leaves it where the pattern goes on, after what the pattern spans. -/
theorem spans_of_accepts {p : Point α} {n : Nat} (hc : e.compile next code = (start, code'))
    (hin : CodeIn full code code') (h : AcceptsIn full n start p) :
    ∃ q m, m ≤ n ∧ e.Spans p q ∧ AcceptsIn full m next q := by
  induction e generalizing next code start code' p n with
  | empty =>
    obtain ⟨rfl, rfl⟩ := Prod.mk.inj hc
    exact ⟨p, n, Nat.le_refl n, .empty, h⟩
  | nothing =>
    obtain ⟨rfl, rfl⟩ := Prod.mk.inj hc
    obtain ⟨m, j, q, rfl, hinstr, h⟩ := h.leads hin.push nofun
    cases hinstr
  | item f =>
    obtain ⟨rfl, rfl⟩ := Prod.mk.inj hc
    obtain ⟨m, j, q, rfl, hinstr, h⟩ := h.leads hin.push nofun
    cases hinstr with
    | read hx => exact ⟨_, m, Nat.le_succ m, .item hx, h⟩
  | look f =>
    obtain ⟨rfl, rfl⟩ := Prod.mk.inj hc
    obtain ⟨m, j, q, rfl, hinstr, h⟩ := h.leads hin.push nofun
    cases hinstr with
    | look hp => exact ⟨_, m, Nat.le_succ m, .look hp, h⟩
  | seq a b iha ihb =>
    obtain ⟨rfl, rfl⟩ := Prod.mk.inj hc
    obtain ⟨hina, hinb⟩ := hin.seq
    obtain ⟨q, m, hm, ha, h⟩ := iha rfl hina h
    obtain ⟨r, k, hk, hb, h⟩ := ihb rfl hinb h
    exact ⟨r, k, Nat.le_trans hk hm, .seq ha hb, h⟩
  | alt a b iha ihb =>
    obtain ⟨rfl, rfl⟩ := Prod.mk.inj hc
    obtain ⟨hina, hinb, hsplit⟩ := hin.alt
    obtain ⟨m, rfl, h | h⟩ := h.split hsplit
    · obtain ⟨q, k, hk, ha, h⟩ := iha rfl hina h
      exact ⟨q, k, Nat.le_succ_of_le hk, .first ha, h⟩
    · obtain ⟨q, k, hk, hb, h⟩ := ihb rfl hinb h
      exact ⟨q, k, Nat.le_succ_of_le hk, .second hb, h⟩
  | star a ih =>
    obtain ⟨rfl, rfl⟩ := Prod.mk.inj hc
    obtain ⟨hina, hsplit⟩ := hin.star
    -- every repetition makes the rest of the run shorter
    induction n using Nat.strongRecOn generalizing p with
    | ind n ihn =>
      obtain ⟨m, rfl, h | h⟩ := h.split hsplit
      · obtain ⟨q, k, hk, ha, h⟩ := ih rfl hina h
        obtain ⟨r, l, hl, hs, h⟩ := ihn k (by omega) h
        exact ⟨r, l, by omega, .more ha hs, h⟩
      · exact ⟨p, m, Nat.le_succ m, .done, h⟩

end Expr

/-! ### Runs -/

/-- A place leads to another one between two items, without reading. -/
inductive Follows (code : Code α) (before after : Option α) : Nat → Nat → Prop where
  | look {i f next} (hi : code[i]? = some (.look f next)) (hf : f before after = true) :
    Follows code before after i next
  | next {i next other} (hi : code[i]? = some (.split next other)) : Follows code before after i next
  | other {i next other} (hi : code[i]? = some (.split next other)) : Follows code before after i other

/-- The places to which an instruction leads between two items, without reading. -/
def Instr.onward (before after : Option α) : Instr α → List Nat
  | .look f next => if f before after then [next] else []
  | .split next other => [next, other]
  | _ => []

/-- A place can be reached between two items from one of several places. -/
def ReachedFrom (code : Code α) (before after : Option α) (places : List Nat) (i : Nat) : Prop :=
  ∃ start ∈ places, Relation.ReflTransGen (Follows code before after) start i

variable {code : Code α} {before after : Option α}

private theorem Follows.lt {i j : Nat} (h : Follows code before after i j) : i < code.size := by
  cases h with
  | look hi _ => exact (Array.getElem?_eq_some_iff.1 hi).1
  | next hi => exact (Array.getElem?_eq_some_iff.1 hi).1
  | other hi => exact (Array.getElem?_eq_some_iff.1 hi).1

private theorem mem_onward_iff {i j : Nat} {instr : Instr α} (hi : code[i]? = some instr) :
    j ∈ instr.onward before after ↔ Follows code before after i j := by
  constructor
  · intro hj
    cases instr with
    | look f next =>
      by_cases hf : f before after = true
      · obtain rfl : j = next := by simpa [Instr.onward, hf] using hj
        exact .look hi hf
      · simp [Instr.onward, hf] at hj
    | split next other =>
      rcases (by simpa [Instr.onward] using hj : j = next ∨ j = other) with rfl | rfl
      · exact .next hi
      · exact .other hi
    | accept | read | stuck => exact absurd hj List.not_mem_nil
  · intro h
    cases h with
    | look hi' hf =>
      obtain rfl := Option.some.inj (hi.symm.trans hi')
      simp [Instr.onward, hf]
    | next hi' | other hi' =>
      obtain rfl := Option.some.inj (hi.symm.trans hi')
      simp [Instr.onward]

private theorem Follows.accepts {i j : Nat} {rest : List α} (h : Follows code before rest.head? i j)
    (hj : Accepts code j ⟨before, rest⟩) : Accepts code i ⟨before, rest⟩ := by
  cases h with
  | look hi hf => exact hj.step hi (.look hf)
  | next hi => exact hj.step hi .next
  | other hi => exact hj.step hi .other

private theorem accepts_of_follows {i j : Nat} {rest : List α}
    (h : Relation.ReflTransGen (Follows code before rest.head?) i j) (hj : Accepts code j ⟨before, rest⟩) :
    Accepts code i ⟨before, rest⟩ := by
  induction h using Relation.ReflTransGen.head_induction_on with
  | refl => exact hj
  | head hstep _ ih => exact hstep.accepts ih

/-- A run goes on without reading until it ends or reads the next item. -/
private theorem exists_follows_of_accepts {i : Nat} {rest : List α} (h : Accepts code i ⟨before, rest⟩) :
    ∃ j, Relation.ReflTransGen (Follows code before rest.head?) i j ∧
      (rest = [] ∧ code[j]? = some .accept ∨
        ∃ f next x later, code[j]? = some (.read f next) ∧ f x = true ∧ rest = x :: later ∧
          Accepts code next ⟨some x, later⟩) := by
  obtain ⟨n, h⟩ := h
  generalize hp : (⟨before, rest⟩ : Point α) = p at h
  induction h with
  | here hi =>
    cases hp
    exact ⟨_, .refl, .inl ⟨rfl, hi⟩⟩
  | step hi hinstr h ih =>
    subst hp
    cases hinstr with
    | read hx => exact ⟨_, .refl, .inr ⟨_, _, _, _, hi, hx, rfl, _, h⟩⟩
    | look hf =>
      obtain ⟨k, hk, hend⟩ := ih rfl
      exact ⟨k, .head (.look hi hf) hk, hend⟩
    | next =>
      obtain ⟨k, hk, hend⟩ := ih rfl
      exact ⟨k, .head (.next hi) hk, hend⟩
    | other =>
      obtain ⟨k, hk, hend⟩ := ih rfl
      exact ⟨k, .head (.other hi) hk, hend⟩

namespace Program

/-- What has been reached if the place of an instruction is reached as well. -/
def Reach.add (r : Reach) (place : Nat) (instr : Instr α) : Reach where
  seen := r.seen.setIfInBounds place true
  waiting :=
    match instr with
    | .read _ _ => place :: r.waiting
    | _ => r.waiting
  accepted :=
    match instr with
    | .accept => true
    | _ => r.accepted

private theorem Reach.seen_add (r : Reach) (place : Nat) (instr : Instr α) :
    (r.add place instr).seen = r.seen.setIfInBounds place true := rfl

/-- A place has been reached. -/
def Reach.Seen (r : Reach) (i : Nat) : Prop := r.seen[i]? = some true

/-- What holds while the places that are still to be followed are `todo`. -/
structure Reach.Underway (code : Code α) (before after : Option α) (places todo : List Nat) (r : Reach) : Prop where
  size : r.seen.size = code.size
  started : ∀ i ∈ places, i < code.size → r.Seen i ∨ i ∈ todo
  closed : ∀ {i j}, r.Seen i → Follows code before after i j → j < code.size → r.Seen j ∨ j ∈ todo
  reached : ∀ {i}, r.Seen i ∨ i ∈ todo → ReachedFrom code before after places i
  accepted : r.accepted = true ↔ ∃ i, r.Seen i ∧ code[i]? = some .accept
  waiting : ∀ {i}, i ∈ r.waiting ↔ r.Seen i ∧ ∃ f next, code[i]? = some (.read f next)

namespace Reach.Underway

variable {places todo succ : List Nat} {place : Nat} {r r' : Reach}

/-- A place that has been reached before, or that is none, is passed over. -/
private theorem skip (h : Underway code before after places (place :: todo) r)
    (hseen : place < code.size → r.Seen place) : Underway code before after places todo r where
  size := h.size
  started i hi hlt := by
    rcases h.started i hi hlt with hi | hi
    · exact .inl hi
    · rcases List.mem_cons.1 hi with rfl | hi
      · exact .inl (hseen hlt)
      · exact .inr hi
  closed hi hij hlt := by
    rcases h.closed hi hij hlt with hj | hj
    · exact .inl hj
    · rcases List.mem_cons.1 hj with rfl | hj
      · exact .inl (hseen hlt)
      · exact .inr hj
  reached hi := h.reached (hi.imp_right (List.mem_cons_of_mem _))
  accepted := h.accepted
  waiting := h.waiting

private theorem seen_add_iff (h : Underway code before after places (place :: todo) r) {instr : Instr α}
    (hi : code[place]? = some instr) {i : Nat} : (r.add place instr).Seen i ↔ i = place ∨ r.Seen i := by
  unfold Reach.Seen
  rw [Reach.seen_add, Array.getElem?_setIfInBounds]
  by_cases heq : place = i
  · have hlt : place < code.size := (Array.getElem?_eq_some_iff.1 hi).1
    rw [if_pos heq, if_pos (h.size ▸ hlt)]
    simp [heq]
  · rw [if_neg heq]
    simp [Ne.symm heq]

/-- A place is reached, and the places to which it leads are still to be followed. -/
private theorem add (h : Underway code before after places (place :: todo) r) {instr : Instr α}
    (hi : code[place]? = some instr) :
    Underway code before after places (instr.onward before after ++ todo) (r.add place instr) := by
  have hiff : ∀ {i}, (r.add place instr).Seen i ↔ i = place ∨ r.Seen i := h.seen_add_iff hi
  constructor
  case size => rw [Reach.seen_add, Array.size_setIfInBounds, h.size]
  case started =>
    intro i hi hlt
    rcases h.started i hi hlt with hi | hi
    · exact .inl (hiff.2 (.inr hi))
    · rcases List.mem_cons.1 hi with rfl | hi
      · exact .inl (hiff.2 (.inl rfl))
      · exact .inr (List.mem_append_right _ hi)
  case closed =>
    intro i j hseen hij hlt
    rcases hiff.1 hseen with rfl | hseen
    · exact .inr (List.mem_append_left _ ((mem_onward_iff hi).2 hij))
    · rcases h.closed hseen hij hlt with hj | hj
      · exact .inl (hiff.2 (.inr hj))
      · rcases List.mem_cons.1 hj with rfl | hj
        · exact .inl (hiff.2 (.inl rfl))
        · exact .inr (List.mem_append_right _ hj)
  case reached =>
    intro i hwhere
    have hplace := h.reached (.inr List.mem_cons_self)
    rcases hwhere with hseen | hmem
    · rcases hiff.1 hseen with rfl | hseen
      · exact hplace
      · exact h.reached (.inl hseen)
    · rcases List.mem_append.1 hmem with hmem | hmem
      · obtain ⟨start, hstart, hsteps⟩ := hplace
        exact ⟨start, hstart, hsteps.tail ((mem_onward_iff hi).1 hmem)⟩
      · exact h.reached (.inr (List.mem_cons_of_mem _ hmem))
  case accepted =>
    simp only [hiff, or_and_right, exists_or, exists_eq_left, hi, ← h.accepted]
    cases instr <;> simp [Reach.add]
  case waiting =>
    intro i
    have hread : (i = place ∧ ∃ f next, code[i]? = some (.read f next)) ↔
        i = place ∧ ∃ f next, instr = .read f next :=
      and_congr_right fun hplace => by rw [hplace, hi]; simp only [Option.some.injEq]
    rw [hiff, or_and_right, hread]
    cases instr <;> simp [Reach.add, h.waiting]

/-- In the end, what can be reached has been reached. -/
private theorem seen_iff (h : Underway code before after places [] r) {i : Nat} (hi : i < code.size) :
    r.Seen i ↔ ReachedFrom code before after places i := by
  refine ⟨fun hseen => h.reached (.inl hseen), ?_⟩
  rintro ⟨start, hstart, hsteps⟩
  induction hsteps with
  | refl => exact (h.started start hstart hi).resolve_right List.not_mem_nil
  | tail _ hstep ih => exact (h.closed (ih hstep.lt) hstep hi).resolve_right List.not_mem_nil

end Reach.Underway

/-- How many places have not been reached. -/
def Reach.unseen (r : Reach) : Nat := r.seen.count false

private theorem unseen_add {r : Reach} {place : Nat} (hplace : r.seen[place]? = some false) (instr : Instr α) :
    (r.add place instr).unseen + 1 = r.unseen := by
  obtain ⟨hlt, hfalse⟩ := Array.getElem?_eq_some_iff.1 hplace
  have hpos : 0 < r.unseen := Array.count_pos_iff.2 (hfalse ▸ Array.getElem_mem hlt)
  have hset : r.seen.setIfInBounds place true = r.seen.set place true hlt := by
    simp [Array.setIfInBounds, hlt]
  unfold Reach.unseen at hpos ⊢
  rw [Reach.seen_add, hset, Array.count_set hlt, hfalse]
  simp
  omega

private theorem length_onward_le (instr : Instr α) : (instr.onward before after).length ≤ 2 := by
  cases instr with
  | look f next =>
    rw [Instr.onward]
    split <;> simp
  | accept | read | split | stuck => simp [Instr.onward]

private theorem reach_of_seen {fuel place : Nat} {todo : List Nat} {r : Reach} (hseen : r.seen.getD place true = true) :
    reach code before after (fuel + 1) (place :: todo) r = reach code before after fuel todo r := by
  rw [reach, if_pos hseen]

private theorem reach_of_unseen {fuel place : Nat} {todo : List Nat} {r : Reach}
    (hseen : r.seen.getD place true = false) {instr : Instr α} (hi : code[place]? = some instr) :
    reach code before after (fuel + 1) (place :: todo) r =
      reach code before after fuel (instr.onward before after ++ todo) (r.add place instr) := by
  rw [reach, if_neg (by simp [hseen])]
  simp only [hi]
  cases instr with
  | look f next =>
    by_cases hf : f before after = true <;> simp [hf, Instr.onward, Reach.add]
  | accept | read | split | stuck => rfl

/-- The loop ends when there is nothing left to follow. -/
private theorem underway_reach {places : List Nat} {fuel : Nat} {todo : List Nat} {r : Reach}
    (h : r.Underway code before after places todo) (hfuel : todo.length + 2 * r.unseen ≤ fuel) :
    (reach code before after fuel todo r).Underway code before after places [] := by
  induction fuel generalizing todo r with
  | zero =>
    obtain rfl : todo = [] := List.eq_nil_of_length_eq_zero (by omega)
    exact h
  | succ fuel ih =>
    cases todo with
    | nil => exact h
    | cons place todo =>
      rw [List.length_cons] at hfuel
      cases hseen : r.seen.getD place true with
      | true =>
        rw [reach_of_seen hseen]
        refine ih (h.skip fun hlt => ?_) (by omega)
        rw [← h.size] at hlt
        simpa [Reach.Seen, Array.getD, hlt] using hseen
      | false =>
        have hlt : place < r.seen.size := by
          refine Nat.lt_of_not_le fun hge => ?_
          simp [Array.getD, Nat.not_lt.2 hge] at hseen
        have hplace : r.seen[place]? = some false := by
          simpa [Array.getD, hlt] using hseen
        obtain ⟨instr, hi⟩ : ∃ instr, code[place]? = some instr := ⟨_, Array.getElem?_eq_getElem (h.size ▸ hlt)⟩
        rw [reach_of_unseen hseen hi]
        -- a place that is marked pays for the two to which it may lead
        refine ih (h.add hi) ?_
        have hunseen := unseen_add hplace instr
        have honward : (instr.onward before after).length ≤ 2 := length_onward_le instr
        rw [List.length_append]
        omega

/-- What is reached is all that can be reached. -/
private theorem underway_reachFrom (code : Code α) (before after : Option α) (places : List Nat) :
    (reachFrom code before after places).Underway code before after places [] := by
  refine underway_reach ⟨by simp, fun i hi _ => .inr hi, fun hi => ?_, fun hi => ?_, ?_, fun {i} => ?_⟩ ?_
  · simp [Reach.Seen, Array.getElem?_replicate] at hi
  · rcases hi with hi | hi
    · simp [Reach.Seen, Array.getElem?_replicate] at hi
    · exact ⟨_, hi, .refl⟩
  · simp [Reach.Seen, Array.getElem?_replicate]
  · simp [Reach.Seen, Array.getElem?_replicate]
  · simp [Reach.unseen]

/-- The run accepts between two items if acceptance can be reached. -/
private theorem accepted_reachFrom_iff {places : List Nat} :
    (reachFrom code before after places).accepted = true ↔
      ∃ i, ReachedFrom code before after places i ∧ code[i]? = some .accept := by
  have hdone := underway_reachFrom code before after places
  rw [hdone.accepted]
  refine exists_congr fun i => and_congr_left fun hi => ?_
  exact hdone.seen_iff (Array.getElem?_eq_some_iff.1 hi).1

/-- The run goes on behind the places that read an item and can be reached. -/
private theorem mem_advance_iff {places : List Nat} {x : α} {next : Nat} :
    next ∈ advance code x (reachFrom code before after places).waiting ↔
      ∃ i f, ReachedFrom code before after places i ∧ code[i]? = some (.read f next) ∧ f x = true := by
  have hdone := underway_reachFrom code before after places
  unfold advance
  rw [List.mem_filterMap]
  constructor
  · rintro ⟨i, hi, hnext⟩
    obtain ⟨hseen, f, next', hread⟩ := hdone.waiting.1 hi
    simp only [hread, Option.ite_none_right_eq_some, Option.some.injEq] at hnext
    obtain ⟨hx, rfl⟩ := hnext
    exact ⟨i, f, (hdone.seen_iff (Array.getElem?_eq_some_iff.1 hread).1).1 hseen, hread, hx⟩
  · rintro ⟨i, f, hi, hread, hx⟩
    refine ⟨i, hdone.waiting.2 ⟨(hdone.seen_iff (Array.getElem?_eq_some_iff.1 hread).1).2 hi, f, next, hread⟩, ?_⟩
    simp [hread, hx]

/-- A run from several places accepts if one of them does. -/
theorem runFrom_iff {p : Program α} {places : List Nat} {text : List α} :
    p.runFrom before places text = true ↔ ∃ i ∈ places, Accepts p.code i ⟨before, text⟩ := by
  induction text generalizing before places with
  | nil =>
    rw [runFrom, accepted_reachFrom_iff]
    constructor
    · rintro ⟨j, ⟨i, hi, hsteps⟩, haccept⟩
      have hend : Accepts p.code j ⟨before, []⟩ := ⟨0, .here haccept⟩
      exact ⟨i, hi, accepts_of_follows hsteps hend⟩
    · rintro ⟨i, hi, h⟩
      obtain ⟨j, hsteps, ⟨-, haccept⟩ | ⟨f, next, x, later, -, -, hrest, -⟩⟩ := exists_follows_of_accepts h
      · exact ⟨j, ⟨i, hi, hsteps⟩, haccept⟩
      · cases hrest
  | cons x text ih =>
    rw [runFrom, ih]
    simp only [mem_advance_iff]
    constructor
    · rintro ⟨next, ⟨j, f, ⟨i, hi, hsteps⟩, hread, hx⟩, h⟩
      have hread : Accepts p.code j ⟨before, x :: text⟩ := h.step hread (.read hx)
      exact ⟨i, hi, accepts_of_follows hsteps hread⟩
    · rintro ⟨i, hi, h⟩
      obtain ⟨j, hsteps, ⟨hrest, -⟩ | ⟨f, next, y, later, hread, hx, hrest, h⟩⟩ := exists_follows_of_accepts h
      · cases hrest
      · cases hrest
        exact ⟨next, ⟨j, f, ⟨i, hi, hsteps⟩, hread, hx⟩, h⟩

end Program

/-- The machine of a pattern accepts a text as a whole if and only if the pattern matches it from its start to its
end. -/
theorem Expr.matchesAll_program (e : Expr α) (text : List α) :
    e.program.matchesAll text = true ↔ ∃ last, e.Spans ⟨none, text⟩ ⟨last, []⟩ := by
  have hsize : 0 < (#[.accept] : Code α).size := Nat.zero_lt_one
  have haccept : e.program.code[0]? = some .accept := getElem?_compile e 0 hsize
  have hin : CodeIn e.program.code #[.accept] (e.compile 0 #[.accept]).2 := fun i _ _ => rfl
  unfold Program.matchesAll
  rw [Program.runFrom_iff]
  constructor
  · rintro ⟨i, hi, n, h⟩
    obtain rfl := List.mem_singleton.1 hi
    obtain ⟨q, m, -, hspans, h⟩ : ∃ q m, m ≤ n ∧ e.Spans ⟨none, text⟩ q ∧ AcceptsIn e.program.code m 0 q :=
      spans_of_accepts rfl hin h
    -- acceptance leads nowhere
    cases h with
    | here _ => exact ⟨_, hspans⟩
    | step hstep hinstr _ =>
      rw [haccept, Option.some.injEq] at hstep
      subst hstep
      cases hinstr
  · rintro ⟨last, hspans⟩
    exact ⟨_, List.mem_singleton_self _, accepts_of_spans hspans rfl hin ⟨0, .here haccept⟩⟩

/-- The machine of several patterns together accepts what the machine of one of them accepts. -/
theorem Expr.matchesAll_alts (es : List (Expr α)) (text : List α) :
    (Expr.alts es).program.matchesAll text = es.any fun e => e.program.matchesAll text := by
  rw [Bool.eq_iff_iff, matchesAll_program, List.any_eq_true]
  simp only [spans_alts_iff, matchesAll_program]
  constructor
  · rintro ⟨last, e, he, hspans⟩
    exact ⟨e, he, last, hspans⟩
  · rintro ⟨e, he, last, hspans⟩
    exact ⟨last, e, he, hspans⟩

end ScriptHost.Pattern
