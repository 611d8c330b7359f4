import ScriptHost.Proofs.Path.Spelling
import ScriptHost.Proofs.Resolution.Memo
import ScriptHost.Resolution.Lookup

/-!
# Whether it matters what is remembered

A memo takes origins with the same parts for one, so its answers are those that would be given afresh if and only if
such origins make no difference to what is found (`transparent_iff`).  On a disk they may make one: a file with a slash
after its path is not taken for a file, and what is found for the name of a package is spelled as the origin is.  They
make none for absolute names and shim paths, for relative names if both origins are taken for files or neither is, and
if both origins stand for the same directory, spelled in the same way (`SeenAlike`).
-/

namespace ScriptHost.Resolution

open ScriptHost.Path

namespace Memo

variable {r : Resolver} {d : Disk}

/-! ### Requests one after the other -/

/-- What is asked: a name and its origin. -/
abbrev Query := String × String

/-- What is found for a request if nothing is remembered. -/
def afresh (r : Resolver) (d : Disk) (q : Query) : Except Failure Identity := (empty.resolve r d q.1 q.2).1

/-- The answers to requests, each of which may be remembered. -/
def answers (r : Resolver) (d : Disk) : Memo → List Query → List (Except Failure Identity)
  | _, [] => []
  | m, q :: rest => (m.resolve r d q.1 q.2).1 :: answers r d (m.resolve r d q.1 q.2).2 rest

/-- All answers are those that would be given afresh. -/
def Transparent (r : Resolver) (d : Disk) (queries : List Query) : Prop :=
  answers r d empty queries = queries.map (afresh r d)

/-- If two requests count as one and something is found for the first, the same is found for the second. -/
def FoundAlike (r : Resolver) (d : Disk) (q q' : Query) : Prop :=
  key q.1 q.2 = key q'.1 q'.2 → ∀ i, afresh r d q = .ok i → afresh r d q' = .ok i

theorem afresh_eq_identify (q : Query) : afresh r d q = (identify r d q.1 q.2).1 := by
  rw [afresh, resolve_answer]
  simp [empty]

/-- A memo remembers of some requests only what would be found for them afresh. -/
def Current (r : Resolver) (d : Disk) (m : Memo) (queries : List Query) : Prop :=
  ∀ q ∈ queries, ∀ i, m.found.get? (key q.1 q.2) = some i → afresh r d q = .ok i

/-- An answer is that which would be given afresh if and only if what is remembered is. -/
theorem resolve_eq_afresh_iff (m : Memo) (q : Query) : (m.resolve r d q.1 q.2).1 = afresh r d q ↔ Current r d m [q] := by
  rw [resolve_answer, afresh_eq_identify]
  unfold Current
  cases hf : m.found.get? (key q.1 q.2) with
  | none => simp [hf]
  | some i => simp [hf, afresh_eq_identify, eq_comm]

/-- After an answer that is given afresh, a memo is current for the rest if it was before and what has been found is
found for the rest as well. -/
theorem current_resolve_iff {m : Memo} {q : Query} (hq : (m.resolve r d q.1 q.2).1 = afresh r d q)
    (rest : List Query) :
    Current r d (m.resolve r d q.1 q.2).2 rest ↔ Current r d m rest ∧ ∀ q' ∈ rest, FoundAlike r d q q' := by
  have hremembered := (resolve_eq_afresh_iff m q).1 hq q (List.mem_singleton_self q)
  unfold Current
  rw [← forall₂_and]
  refine forall₂_congr fun q' _ => ?_
  rw [get?_resolve, hq]
  by_cases hkey : key q'.1 q'.2 = key q.1 q.2
  · rw [if_pos hkey, hkey]
    constructor
    · intro hfound
      have halike : FoundAlike r d q q' := fun _ i hi => hfound i (by rw [hi]; rfl)
      exact ⟨fun i hi => halike hkey.symm i (hremembered i hi), halike⟩
    · rintro ⟨-, halike⟩ i hi
      refine halike hkey.symm i ?_
      cases ha : afresh r d q with
      | error e => rw [ha] at hi; cases hi
      | ok j => rw [ha] at hi; cases hi; rfl
  · rw [if_neg hkey]
    exact ⟨fun hfound => ⟨hfound, fun heq => absurd heq.symm hkey⟩, And.left⟩

/-- The answers of a memo are those that would be given afresh if and only if it is current and requests that count as
one are found alike. -/
private theorem answers_eq_iff (m : Memo) (queries : List Query) :
    answers r d m queries = queries.map (afresh r d) ↔
      Current r d m queries ∧ queries.Pairwise (FoundAlike r d) := by
  induction queries generalizing m with
  | nil => simp [answers, Current]
  | cons q rest ih =>
    have hcons : Current r d m (q :: rest) ↔ Current r d m [q] ∧ Current r d m rest := by
      simp [Current]
    rw [answers, List.map_cons, List.cons.injEq, ih, List.pairwise_cons, hcons, ← resolve_eq_afresh_iff]
    constructor
    · rintro ⟨hq, hcurrent, hpairs⟩
      obtain ⟨hrest, halike⟩ := (current_resolve_iff hq rest).1 hcurrent
      exact ⟨⟨hq, hrest⟩, halike, hpairs⟩
    · rintro ⟨⟨hq, hrest⟩, halike, hpairs⟩
      exact ⟨hq, (current_resolve_iff hq rest).2 ⟨hrest, halike⟩, hpairs⟩

end Memo

/-! ### Requests on a disk -/

section

variable {d : Disk} {name origin origin' : String}

/-- Whether an origin is taken for a file, so that names are relative to the directory above it. -/
def takenForFile (d : Disk) (origin : String) : Bool :=
  d.isFile origin || ((extension? origin).isSome && !d.isDirectory origin)

/-- If two origins have the same parts and both are taken for files or neither is, so have their directories. -/
theorem components_originDirectory (ho : components origin = components origin')
    (hfile : takenForFile d origin = takenForFile d origin') :
    components (originDirectory d origin) = components (originDirectory d origin') := by
  have hdirectory : ∀ o, originDirectory d o = if takenForFile d o then (parent? o).getD "" else o := fun _ => rfl
  rw [hdirectory, hdirectory, ← hfile]
  split
  · exact components_parent_congr ho
  · exact ho

private theorem lookup_of_isAbsolute (hname : isAbsolute name = true) (dir dir' : String) :
    lookup d name dir = lookup d name dir' := by
  rw [lookup, if_pos hname, lookup, if_pos hname]

private theorem lookup_of_isRelative (hname : isRelative name = true) {dir dir' : String}
    (hdir : components dir = components dir') : lookup d name dir = lookup d name dir' := by
  cases ha : isAbsolute name with
  | true => exact lookup_of_isAbsolute ha dir dir'
  | false =>
    have hjoined := components_join_congr hdir ha
    rw [lookup, ha, if_neg (by decide), if_pos hname, lookup, ha, if_neg (by decide), if_pos hname, clean, clean, hjoined]

/-- Two origins from which the same file is looked up make no difference to what is found. -/
private theorem nodeResolver_of_lookup
    (hl : lookup d name (originDirectory d origin) = lookup d name (originDirectory d origin')) {path : String}
    (hr : nodeResolver.resolve d name origin = .ok path) : nodeResolver.resolve d name origin' = .ok path := by
  simp only [nodeResolver] at hr ⊢
  unfold resolveOnDisk at hr ⊢
  rw [← hl]
  split at hr
  · cases hr
  · rw [if_neg ‹_›]
    cases hfound : lookup d name (originDirectory d origin) with
    | none => rw [hfound] at hr; cases hr
    | some found => rw [hfound] at hr; cases hr; rfl

end

namespace Memo

variable {d : Disk}

/-- If two requests count as one, there is nothing about their name and origins that makes a difference. -/
def SeenAlike (d : Disk) (q q' : Query) : Prop :=
  key q.1 q.2 = key q'.1 q'.2 → isShim q.1 = true ∨ isAbsolute q.1 = true ∨
    (isRelative q.1 = true ∧ takenForFile d q.2 = takenForFile d q'.2) ∨
    originDirectory d q.2 = originDirectory d q'.2

private theorem SeenAlike.foundAlike {q q' : Query} (hs : SeenAlike d q q') : FoundAlike nodeResolver d q q' := by
  obtain ⟨name, origin⟩ := q
  obtain ⟨name', origin'⟩ := q'
  intro hkey i hi
  have hs := hs hkey
  obtain ⟨rfl, horigins⟩ := Prod.mk.inj hkey
  rw [afresh_eq_identify] at hi ⊢
  dsimp only at hs hi ⊢
  unfold identify at hi ⊢
  by_cases hshim : isShim name = true
  · rwa [if_pos hshim] at hi ⊢
  · rw [if_neg hshim] at hi ⊢
    have hlookup : lookup d name (originDirectory d origin) = lookup d name (originDirectory d origin') := by
      rcases hs with hs | ha | ⟨hr, hfile⟩ | hsame
      · exact absurd hs hshim
      · exact lookup_of_isAbsolute ha ..
      · exact lookup_of_isRelative hr (components_originDirectory horigins hfile)
      · rw [hsame]
    cases hpath : nodeResolver.resolve d name origin with
    | error e =>
      rw [hpath] at hi
      cases hi
    | ok path =>
      rw [hpath] at hi
      rw [nodeResolver_of_lookup hlookup hpath]
      exact hi

/-- What is remembered does not matter if and only if requests that count as one are found alike.  They are, for the
resolver that looks modules up on the disk, if their name and origins make no difference. -/
theorem transparent_iff (d : Disk) (queries : List Query) :
    (∀ r, Transparent r d queries ↔ queries.Pairwise (FoundAlike r d)) ∧
      (queries.Pairwise (SeenAlike d) → Transparent nodeResolver d queries) := by
  have hiff : ∀ r, Transparent r d queries ↔ queries.Pairwise (FoundAlike r d) := by
    intro r
    have hempty : Current r d empty queries := fun q _ i hi => by simp [empty] at hi
    rw [Transparent, answers_eq_iff]
    exact ⟨And.right, fun hpairs => ⟨hempty, hpairs⟩⟩
  exact ⟨hiff, fun hpairs => (hiff nodeResolver).2 (hpairs.imp SeenAlike.foundAlike)⟩

/-- Seen from a file, it does not matter whether a slash is repeated, but it does whether there is one at the end. -/
theorem transparent_iff_of_slash : ∃ d : Disk,
    Transparent nodeResolver d [("./x", "/r/Makefile"), ("./x", "/r//Makefile")] ∧
    ¬ Transparent nodeResolver d [("./x", "/r/Makefile"), ("./x", "/r/Makefile/")] ∧
    afresh nodeResolver d ("./x", "/r/Makefile") = .ok (.ofResolved "/r/x.ts") ∧
    afresh nodeResolver d ("./x", "/r/Makefile/") = .error (.notFound "./x" "/r/Makefile/") := by
  let d := (Disk.empty.write "/r/Makefile" (.text "all:")).write "/r/x.ts" (.text "1")
  have hfile : afresh nodeResolver d ("./x", "/r/Makefile") = .ok (.ofResolved "/r/x.ts") := by decide +kernel
  have hslash : afresh nodeResolver d ("./x", "/r/Makefile/") = .error (.notFound "./x" "/r/Makefile/") := by
    decide +kernel
  have hrelative : isRelative "./x" = true := by decide +kernel
  have hsame : takenForFile d "/r/Makefile" = takenForFile d "/r//Makefile" := by decide +kernel
  have hseen : SeenAlike d ("./x", "/r/Makefile") ("./x", "/r//Makefile") := fun _ => .inr (.inr (.inl ⟨hrelative, hsame⟩))
  refine ⟨d, (transparent_iff d _).2 (List.pairwise_pair.2 hseen), fun ht => ?_, hfile, hslash⟩
  · have halike := List.pairwise_pair.1 (((transparent_iff d _).1 nodeResolver).1 ht)
    have hfound := halike (by decide +kernel) _ hfile
    rw [hslash] at hfound
    cases hfound

end Memo

end ScriptHost.Resolution
