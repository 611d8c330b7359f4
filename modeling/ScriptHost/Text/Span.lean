/-!
# Byte ranges
-/

namespace ScriptHost.Text

/-- A range of bytes of a text. -/
structure Span where
  start : Nat
  length : Nat
  deriving DecidableEq, Repr, Inhabited

namespace Span

/-- The range from `start` up to `stop`; it is empty if `stop` comes first. -/
def ofBounds (start stop : Nat) : Span := ⟨start, stop - start⟩

/-- The byte after the range. -/
def stop (s : Span) : Nat := s.start + s.length

/-- Whether a byte lies in the range. -/
def contains (s : Span) (offset : Nat) : Bool := s.start ≤ offset && offset < s.stop

end Span

end ScriptHost.Text
