import ScriptHost.Text.Span

/-!
# Analysis engines

An engine answers questions about scripts.  What it may ask in turn is a `ScriptView`: which scripts there are, in which
version, and with which text.  An `Engine` over a state `σ` is a record of its operations, each of which may change the
state.
-/

namespace ScriptHost.Analysis

open ScriptHost.Text

/-- The number of a script's current text; it wraps beyond 64 bits. -/
abbrev Version := Int64

/-- The version of a script that is not tracked. -/
def untracked : Version := -1

/-- What an engine may ask about the scripts. -/
structure ScriptView where
  /-- The names of the scripts, sorted. -/
  names : List String
  version : String → Version
  snapshot : String → Option String

/-- A statement at the top level of a script. -/
structure Statement where
  kind : String
  /-- The name that the statement declares. -/
  name : Option String
  span : Span
  text : String
  fileName : String
  deriving DecidableEq, Repr

/-- A script as an engine has read it. -/
structure SourceUnit where
  fileName : String
  version : Version
  statements : List Statement
  deriving DecidableEq, Repr

/-- Where a symbol is declared. -/
structure Definition where
  fileName : String
  span : Span
  kind : String
  name : String
  containerName : String
  deriving DecidableEq, Repr

/-- A place where a symbol is named. -/
structure Reference where
  fileName : String
  span : Span
  isDefinition : Bool
  deriving DecidableEq, Repr

/-- A symbol with the places where it is named. -/
structure ReferencedSymbol where
  definition : Definition
  references : List Reference
  deriving DecidableEq, Repr

/-- Where a symbol is implemented. -/
structure Implementation where
  fileName : String
  span : Span
  kind : String
  deriving DecidableEq, Repr

/-- What is shown of a symbol. -/
structure QuickInfo where
  kind : String
  span : Span
  display : String
  documentation : Option String
  deriving DecidableEq, Repr

/-- The operations of an analysis engine; offsets count bytes. -/
structure Engine (σ : Type) where
  sourceFile : ScriptView → String → σ → Option SourceUnit × σ
  definitions : ScriptView → String → Nat → σ → Option (List Definition) × σ
  typeDefinitions : ScriptView → String → Nat → σ → Option (List Definition) × σ
  references : ScriptView → String → Nat → σ → Option (List ReferencedSymbol) × σ
  implementations : ScriptView → String → Nat → σ → Option (List Implementation) × σ
  quickInfo : ScriptView → String → Nat → σ → Option QuickInfo × σ
  /-- Forgets what is known of a script. -/
  release : String → σ → σ

end ScriptHost.Analysis
