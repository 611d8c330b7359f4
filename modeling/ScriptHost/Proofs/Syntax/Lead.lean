import ScriptHost.Proofs.Syntax.Cursor
import ScriptHost.Proofs.Syntax.Machine
import ScriptHost.Syntax.Script.Grammar

/-!
# How rules begin

Before a rule has taken its first token, nothing of what it does depends on what stands before that token.  This can be
seen from the rules: none begins with a test of what is before it, and none makes a construct of nothing
(`Rule.leads`).
-/

namespace ScriptHost.Syntax

variable {σ : Type}

namespace Rule

/-- Whether a rule may match without taking a token, if the symbols `e` may. -/
def mayBeEmpty (e : σ → Bool) : Rule σ → Bool
  | nothing => true
  | token .. => false
  | glued .. => false
  | ending _ => true
  | sameLine => true
  | seq a b => a.mayBeEmpty e && b.mayBeEmpty e
  | alt a b => a.mayBeEmpty e || b.mayBeEmpty e
  | many _ => true
  | absent nothing => false
  | absent _ => true
  | ref x => e x
  | node .. => false
  | grow .. => false
  | field _ a => a.mayBeEmpty e
  | recast _ => true

/-- Whether a rule does not look behind before it takes its first token, which is not empty, and begins no construct
that may be empty. -/
def leads (e : σ → Bool) : Rule σ → Bool
  | nothing => true
  | token _ _ l => l.isFilled
  | glued .. => false
  | ending _ => false
  | sameLine => false
  | seq a b => a.leads e && (!a.mayBeEmpty e || b.leads e)
  | alt a b => a.leads e && b.leads e
  | many a => a.leads e
  | absent a => a.leads e
  | ref _ => true
  | node _ a => a.leads e && !a.mayBeEmpty e
  | grow .. => true
  | field _ a => a.leads e
  | recast _ => true

/-- How a rule recasts nodes. -/
def recasts : Rule σ → List (Node → Node)
  | seq a b => a.recasts ++ b.recasts
  | alt a b => a.recasts ++ b.recasts
  | many a => a.recasts
  | absent a => a.recasts
  | node _ a => a.recasts
  | grow _ _ a => a.recasts
  | field _ a => a.recasts
  | recast f => [f]
  | _ => []

end Rule

/-! ### Nodes further on -/

namespace Node

mutual

/-- The tree `k` bytes further on. -/
def shift (k : Nat) : Node → Node
  | leaf kind named place start text => leaf kind named place (start + k) text
  | branch kind place start stop children => branch kind place (start + k) (stop + k) (shiftAll k children)

/-- Trees `k` bytes further on. -/
def shiftAll (k : Nat) : List Node → List Node
  | [] => []
  | n :: rest => n.shift k :: shiftAll k rest

end

theorem shiftAll_eq_map (k : Nat) (nodes : List Node) : shiftAll k nodes = nodes.map (shift k) := by
  induction nodes with
  | nil => rw [shiftAll, List.map_nil]
  | cons n rest ih => rw [shiftAll, ih, List.map_cons]

@[simp] theorem kind_shift (k : Nat) (n : Node) : (n.shift k).kind = n.kind := by
  cases n <;> rw [shift] <;> rfl

@[simp] theorem start_shift (k : Nat) (n : Node) : (n.shift k).start = n.start + k := by
  cases n <;> rw [shift] <;> rfl

@[simp] theorem stop_shift (k : Nat) (n : Node) : (n.shift k).stop = n.stop + k := by
  cases n <;> rw [shift]
  · exact Nat.add_right_comm _ _ _
  · rfl

theorem withField_shift (k : Nat) (f : Field) (n : Node) : (n.shift k).withField f = (n.withField f).shift k := by
  cases n <;> rw [shift, withField, withField, shift]

@[simp] theorem start_withField (f : Field) (n : Node) : (n.withField f).start = n.start := by
  cases n <;> rfl

/-- The node around which another one grows stays where it is. -/
theorem start_elim_withField (f : Option Field) (n : Node) : (f.elim n n.withField).start = n.start := by
  cases f with
  | none => rfl
  | some f => exact start_withField f n

end Node

/-- A way to recast nodes that does not depend on where they are. -/
structure Harmless (f : Node → Node) : Prop where
  shift (k : Nat) (n : Node) : f (n.shift k) = (f n).shift k
  start (n : Node) : (f n).start = n.start

/-- The rules of a grammar do not look behind before they take a token, and recast nodes wherever they are. -/
structure Leads (grammar : σ → Rule σ) (e : σ → Bool) : Prop where
  leads x : (grammar x).leads e = true
  mayBeEmpty x : (grammar x).mayBeEmpty e = true → e x = true
  recasts x : ∀ f ∈ (grammar x).recasts, Harmless f

namespace Script

/-! ### The script grammar -/

private theorem asTarget_shift (k : Nat) (n : Node) : asTarget (n.shift k) = (asTarget n).shift k := by
  refine asTarget.induct (fun n => asTarget (n.shift k) = (asTarget n).shift k)
    (fun nodes => asTargets (Node.shiftAll k nodes) = Node.shiftAll k (asTargets nodes))
    ?object ?array ?pair ?spread ?assignment ?shorthand ?other ?nil ?cons n
  case object | array | pair | spread =>
    intro place start stop children ih
    rw [Node.shift, asTarget, asTarget, Node.shift, ih]
  case assignment =>
    intro place start stop children
    rw [Node.shift, asTarget, asTarget, Node.shift]
  case shorthand =>
    intro named place start text
    rw [Node.shift, asTarget, asTarget, Node.shift]
  case other =>
    intro n h₁ h₂ h₃ h₄ h₅ h₆
    have hsame : asTarget n = n := by rw [asTarget] <;> assumption
    rw [hsame]
    cases n with
    | leaf kind named place start text =>
      rw [Node.shift, asTarget]
      case x_6 =>
        rintro _ _ _ _ ⟨rfl⟩
        exact h₆ _ _ _ _ rfl
      all_goals exact nofun
    | branch kind place start stop children =>
      rw [Node.shift, asTarget]
      case x_6 => exact nofun
      all_goals rintro _ _ _ _ ⟨rfl⟩
      · exact h₁ _ _ _ _ rfl
      · exact h₂ _ _ _ _ rfl
      · exact h₃ _ _ _ _ rfl
      · exact h₄ _ _ _ _ rfl
      · exact h₅ _ _ _ _ rfl
  case nil => rw [Node.shiftAll, asTargets, Node.shiftAll]
  case cons =>
    intro n rest ih ih'
    rw [Node.shiftAll, asTargets, asTargets, Node.shiftAll, ih, ih']

theorem harmless_asTarget : Harmless asTarget where
  shift := asTarget_shift
  start n := by
    unfold asTarget
    split <;> rfl

private theorem any_shiftAll (k : Nat) (p : String → Bool) (nodes : List Node) :
    ((Node.shiftAll k nodes).any fun n => p n.kind) = nodes.any fun n => p n.kind := by
  rw [Node.shiftAll_eq_map, List.any_map]
  simp [Function.comp_def]

theorem harmless_markOptional : Harmless markOptional where
  shift k n := by
    by_cases hn : ∃ place start stop children, n = .branch "required_parameter" place start stop children
    · obtain ⟨place, start, stop, children, rfl⟩ := hn
      rw [Node.shift, markOptional, markOptional, Node.shift, any_shiftAll k (· == "?")]
    · have hsame : markOptional n = n := by
        rw [markOptional]
        rintro place start stop children rfl
        exact hn ⟨_, _, _, _, rfl⟩
      rw [hsame]
      cases n with
      | leaf kind named place start text => rw [Node.shift, markOptional]; exact nofun
      | branch kind place start stop children =>
        rw [Node.shift, markOptional]
        rintro _ _ _ _ ⟨rfl⟩
        exact hn ⟨_, _, _, _, rfl⟩
  start n := by
    unfold markOptional
    split <;> rfl

/-- What is so at each level of operators in the table, and at all levels beyond it, is so at every level. -/
@[elab_as_elim]
theorem cases_level {motive : Nat → Prop} (zero : motive 0) (one : motive 1) (two : motive 2) (three : motive 3)
    (four : motive 4) (five : motive 5) (six : motive 6) (seven : motive 7) (eight : motive 8) (nine : motive 9)
    (ten : motive 10) (beyond : ∀ level, motive (level + 11)) : ∀ level, motive level
  | 0 => zero
  | 1 => one
  | 2 => two
  | 3 => three
  | 4 => four
  | 5 => five
  | 6 => six
  | 7 => seven
  | 8 => eight
  | 9 => nine
  | 10 => ten
  | level + 11 => beyond level

/-- The two ways in which the rules of the script grammar recast nodes. -/
theorem eq_of_mem_recasts {d : Dialect} {x : Symbol} {f : Node → Node} (hf : f ∈ (grammar d x).recasts) :
    f = asTarget ∨ f = markOptional := by
  cases x with
  | binary level => cases level using cases_level <;> cases hf
  | statement | expression => exact .inl (List.mem_singleton.1 hf)
  | formalParameters =>
    have h : (grammar d .formalParameters).recasts = [markOptional, markOptional] := rfl
    rw [h] at hf
    exact .inr (by simpa using hf)
  | _ => cases d <;> cases hf

/-- Of all constructs, only decorators may be empty. -/
def mayBeEmpty : Symbol → Bool
  | .decorators => true
  | _ => false

theorem leads_grammar (d : Dialect) : Leads (grammar d) mayBeEmpty where
  leads x := by
    cases x with
    | binary level => cases level using cases_level <;> rfl
    | _ => cases d <;> rfl
  mayBeEmpty x := by
    cases x with
    | binary level => cases level using cases_level <;> exact nofun
    | decorators => exact fun _ => rfl
    | _ => cases d <;> exact nofun
  recasts x f hf := by
    rcases eq_of_mem_recasts hf with rfl | rfl
    · exact harmless_asTarget
    · exact harmless_markOptional

end Script

end ScriptHost.Syntax
