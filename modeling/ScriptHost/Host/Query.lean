import ScriptHost.Host.Observation

/-!
# Questions to the engine

A question is about a byte of a script.  The script is given by a name, which is looked up first, or by the key that the
engine itself has used for it.
-/

namespace ScriptHost.Host

open ScriptHost.Analysis

variable {σ α : Type}

/-- A question about a byte of a script. -/
abbrev Question (σ α : Type) := Engine σ → ScriptView → String → Nat → σ → Option α × σ

/-- Asks about a byte of the script with a key. -/
def askAt (q : Question σ α) (key : String) (offset : Nat) : Action σ (Option α) :=
  Action.ask fun engine view => q engine view key offset

/-- Asks about a byte of the script with a name. -/
def askAbout (q : Question σ α) (name : String) (offset : Nat) : Action σ (Option α) := do
  askAt q (← engineName name) offset

/-- Where the name at a byte is declared. -/
def definitions (name : String) (offset : Nat) : Action σ (Option (List Definition)) :=
  askAbout (·.definitions) name offset

/-- Where the type of the name at a byte is declared. -/
def typeDefinitions (name : String) (offset : Nat) : Action σ (Option (List Definition)) :=
  askAbout (·.typeDefinitions) name offset

/-- Where the name at a byte stands. -/
def references (name : String) (offset : Nat) : Action σ (Option (List ReferencedSymbol)) :=
  askAbout (·.references) name offset

/-- Where the name at a byte is implemented. -/
def implementations (name : String) (offset : Nat) : Action σ (Option (List Implementation)) :=
  askAbout (·.implementations) name offset

/-- What is shown of the name at a byte. -/
def quickInfo (name : String) (offset : Nat) : Action σ (Option QuickInfo) :=
  askAbout (·.quickInfo) name offset

end ScriptHost.Host
