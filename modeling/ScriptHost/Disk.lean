import ScriptHost.Path.Basic
import ScriptHost.Table

/-!
# Disks

What is on a disk: directories and files, and which texts the files hold.  A place on a disk is the list of the names
that lead to it, the innermost first; all places above a place that is there are directories (`Disk.closed`).  A path
is followed name by name: every name leads further only from a directory, and `..` leads back to the directory above.
-/

namespace ScriptHost

/-- What a file holds. -/
inductive Content where
  | text (s : String)
  /-- Bytes that encode no text. -/
  | binary
  deriving DecidableEq, Repr

/-- What is at a place. -/
inductive Entry where
  | file (content : Content)
  | directory
  deriving DecidableEq, Repr

/-- A place on a disk: the names that lead to it, the innermost first. -/
abbrev Place := List String

/-- The directories and files on a disk.  The root directory is always there. -/
structure Disk where
  entries : Table Place Entry
  closed : ∀ name above, (entries.get? (name :: above)).isSome → above = [] ∨ entries.get? above = some .directory

namespace Disk

/-- The disk with nothing on it. -/
def empty : Disk := ⟨.empty, by simp⟩

instance : Inhabited Disk := ⟨empty⟩

/-- What is at a place. -/
def entry? (d : Disk) : Place → Option Entry
  | [] => some .directory
  | place => d.entries.get? place

/-! ### Changes -/

/-- Puts an entry below a directory; a directory that is there stays. -/
def place (d : Disk) (name : String) (above : Place) (e : Entry) : Disk :=
  if h : d.entry? above = some .directory ∧ d.entry? (name :: above) ≠ some .directory then
    { entries := d.entries.insert (name :: above) e
      closed := by
        obtain ⟨hdir, hnew⟩ := h
        intro n a hs
        have ha : a = [] ∨ d.entries.get? a = some .directory := by
          by_cases he : n :: a = name :: above
          · obtain ⟨rfl, rfl⟩ := List.cons.inj he
            cases a with
            | nil => exact .inl rfl
            | cons m r => exact .inr hdir
          · rw [Table.get?_insert, if_neg he] at hs
            exact d.closed n a hs
        refine ha.imp_right fun hd => ?_
        have hne : a ≠ name :: above := fun hc => hnew (by rw [← hc]; subst hc; exact hd)
        rw [Table.get?_insert, if_neg hne]
        exact hd }
  else d

/-- Makes the directories that lead to a place. -/
def makeDirectories (d : Disk) : Place → Disk
  | [] => d
  | name :: above => (d.makeDirectories above).place name above .directory

/-- Puts a file, and the directories that lead to it. -/
def writePlace (d : Disk) (place : Place) (content : Content) : Disk :=
  match place with
  | [] => d
  | name :: above => (d.makeDirectories above).place name above (.file content)

/-- Takes away what is at a place and below it. -/
def deletePlace (d : Disk) (place : Place) : Disk where
  entries := d.entries.filter fun q => !place.isSuffixOf q
  closed := by
    intro n a hs
    rw [Table.get?_filter] at hs
    split at hs
    · rename_i hkeep
      refine (d.closed n a hs).imp_right fun hd => ?_
      have : ¬ place <:+ a := fun hc => by
        have : place <:+ n :: a := hc.trans (List.suffix_cons n a)
        rw [List.isSuffixOf_iff_suffix.2 this] at hkeep
        exact absurd hkeep (by decide)
      have hout : place.isSuffixOf a = false := Bool.eq_false_iff.2 fun hc => this (List.isSuffixOf_iff_suffix.1 hc)
      rw [Table.get?_filter, hout]
      exact hd
    · simp at hs

/-! ### Paths -/

/-- Why a path leads to nothing that can be read. -/
inductive Failure where
  | notFound
  /-- A part of the path is not a directory. -/
  | notDirectory
  /-- The path leads to a directory. -/
  | isDirectory
  deriving DecidableEq, Repr

/-- The failure in words. -/
def Failure.message : Failure → String
  | notFound => "No such file or directory (os error 2)"
  | notDirectory => "Not a directory (os error 20)"
  | isDirectory => "Is a directory (os error 21)"

/-- Follows the parts of a path from a place. -/
def follow (d : Disk) (start : Place) : List String → Except Failure Place
  | [] => if (d.entry? start).isSome then .ok start else .error .notFound
  | part :: rest =>
    match d.entry? start with
    | none => .error .notFound
    | some (.file _) => .error .notDirectory
    | some .directory =>
      if part = "" ∨ part = "." then d.follow start rest
      else if part = ".." then d.follow start.tail rest
      else d.follow (part :: start) rest

/-- The place to which an absolute path leads. -/
def locate (d : Disk) (path : String) : Except Failure Place :=
  match Path.segments path with
  | "" :: parts@(_ :: _) => d.follow [] parts
  | _ => .error .notFound

/-- What an absolute path leads to. -/
def lookup (d : Disk) (path : String) : Except Failure Entry :=
  (d.locate path).bind fun place => ((d.entry? place).map .ok).getD (.error .notFound)

/-- Whether a path leads to a file. -/
def isFile (d : Disk) (path : String) : Bool :=
  match d.lookup path with
  | .ok (.file _) => true
  | _ => false

/-- Whether a path leads to a directory. -/
def isDirectory (d : Disk) (path : String) : Bool :=
  match d.lookup path with
  | .ok .directory => true
  | _ => false

/-- What the file holds to which a path leads. -/
def read (d : Disk) (path : String) : Except Failure Content :=
  match d.lookup path with
  | .ok (.file content) => .ok content
  | .ok .directory => .error .isDirectory
  | .error e => .error e

/-- The text of the file to which a path leads, if it holds one. -/
def text? (d : Disk) (path : String) : Option String :=
  match d.read path with
  | .ok (.text s) => some s
  | _ => none

/-- The place that an absolute path names, whatever is on the disk. -/
def placeOf (path : String) : Place :=
  (Path.segments path).foldl (fun place part =>
    if part = "" ∨ part = "." then place else if part = ".." then place.tail else part :: place) []

/-- The path of a place. -/
def pathOf (place : Place) : String := if place.isEmpty then "/" else String.join (place.reverse.map ("/" ++ ·))

/-- Puts a file at a path; a path that ends in a slash names a directory, which is made. -/
def write (d : Disk) (path : String) (content : Content) : Disk :=
  if path.toList.getLast? = some '/' then d.makeDirectories (placeOf path) else d.writePlace (placeOf path) content

/-- Takes away the file or directory at a path. -/
def delete (d : Disk) (path : String) : Disk := d.deletePlace (placeOf path)

/-- The names in a directory, sorted. -/
def children (d : Disk) (place : Place) : List String :=
  (d.entries.keys.filterMap fun q =>
    match q with
    | name :: above => if above = place then some name else none
    | [] => none).mergeSort fun a b => !(b < a)

end Disk

end ScriptHost
