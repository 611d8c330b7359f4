import ScriptHost.Path.Script
import ScriptHost.Resolution.Basic

/-!
# Remembered identities

What a name means as seen from an origin is found once and then remembered.  Failures are not remembered, and a shim
path stands for itself.  Origins with the same parts count as one.
-/

namespace ScriptHost.Resolution

open ScriptHost.Path

/-- A name with the parts of its origin. -/
abbrev Request := String × List Component

/-- The identities that have been found. -/
structure Memo where
  found : Table Request Identity
  /-- How many times a resolver has been asked. -/
  calls : Nat

namespace Memo

/-- The memo in which nothing has been found. -/
def empty : Memo := ⟨.empty, 0⟩

/-- The number of requests that have succeeded. -/
def size (m : Memo) : Nat := m.found.size

/-- The key of a request. -/
def key (name origin : String) : Request := (name, components origin)

/-- How many identities had been found before the one of a request. -/
def number? (m : Memo) (name origin : String) : Option Nat := m.found.keys.reverse.findIdx? (· == key name origin)

/-- What a name means that is not remembered, and whether a resolver was asked. -/
def identify (r : Resolver) (d : Disk) (name origin : String) : Except Failure Identity × Nat :=
  if isShim name then (.ok (.shim name), 0) else ((r.resolve d name origin).map .ofResolved, 1)

/-- What a name means as seen from an origin. -/
def resolve (r : Resolver) (d : Disk) (name origin : String) (m : Memo) : Except Failure Identity × Memo :=
  match m.found.get? (key name origin) with
  | some identity => (.ok identity, m)
  | none =>
    let (answer, asked) := identify r d name origin
    let m := { m with calls := m.calls + asked }
    match answer with
    | .ok identity => (.ok identity, { m with found := m.found.insert (key name origin) identity })
    | .error failure => (.error failure, m)

end Memo

end ScriptHost.Resolution
