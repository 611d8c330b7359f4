import ScriptHost.Json.Reader
import ScriptHost.Load
import ScriptHost.Resolution.Basic

/-!
# Looking modules up on a disk

A path names a file, a file without its extension, or a directory whose manifest or index file is meant.  Any other
name is that of a package, which is looked for in the `node_modules` directories above the origin, and last beside it.
-/

namespace ScriptHost.Resolution

open ScriptHost.Text

/-- The modules that Node.js brings along. -/
def nodeBuiltIns : List String :=
  ["assert", "async_hooks", "buffer", "child_process", "cluster", "console", "constants", "crypto", "dgram",
    "dns", "domain", "events", "fs", "http", "http2", "https", "inspector", "module", "net", "os", "path",
    "perf_hooks", "process", "punycode", "querystring", "readline", "repl", "stream", "string_decoder",
    "timers", "tls", "trace_events", "tty", "url", "util", "v8", "vm", "worker_threads", "zlib"]

/-- The extensions that a name may lack, in the order in which they are tried. -/
def triedExtensions : List String := [".ts", ".tsx", ".js", ".jsx", ".mjs", ".cjs", ".d.ts"]

/-- The members of a manifest that may name the entry file of a package, in the order in which they are tried. -/
def entryFields : List String := ["main", "types", "typings"]

/-- The file at a path, or at the path with an extension. -/
def locateFile (d : Disk) (base : String) : Option String :=
  if d.isFile base then some base else d.firstExisting base triedExtensions

/-- The entry files that a manifest names. -/
def manifestEntries (d : Disk) (dir : String) : List String :=
  match (d.text? (Path.join dir "package.json")).bind Json.parse? with
  | some manifest => entryFields.filterMap fun field => (manifest.get? field).bind Json.text?
  | none => []

/-- The file at the place of an entry. -/
def locateEntry (d : Disk) (entry : String) : Option String :=
  (locateFile d entry).orElse fun _ => if d.isDirectory entry then locateFile d (Path.join entry "index") else none

/-- The file that a directory stands for. -/
def locateDirectory (d : Disk) (dir : String) : Option String :=
  if d.isDirectory dir then
    ((manifestEntries d dir).findSome? fun entry => locateEntry d (Path.clean (Path.join dir entry))).orElse fun _ =>
      locateFile d (Path.join dir "index")
  else none

/-- The file that a path stands for. -/
def locate (d : Disk) (base : String) : Option String :=
  (locateFile d base).orElse fun _ => locateDirectory d base

/-- Whether a name is relative to the directory of the origin. -/
def isRelative (name : String) : Bool := name == "." || name == ".." || hasLead "./" name || hasLead "../" name

/-- The directory that names are relative to.  An origin with an extension that is no directory is taken for a file. -/
def originDirectory (d : Disk) (origin : String) : String :=
  if d.isFile origin || ((Path.extension? origin).isSome && !d.isDirectory origin) then (Path.parent? origin).getD ""
  else origin

/-- The file with a name, as seen from a directory. -/
def lookup (d : Disk) (name dir : String) : Option String :=
  if Path.isAbsolute name then locate d (Path.clean name)
  else if isRelative name then locate d (Path.clean (Path.join dir name))
  else
    let packages := (Path.ancestors dir).map fun above => Path.join (Path.join above "node_modules") name
    (packages.findSome? (locate d)).orElse fun _ => locate d (Path.clean (Path.join dir name))

/-- Finds the file with a name, as seen from an origin. -/
def resolveOnDisk (d : Disk) (name origin : String) : Except Failure String :=
  if (trim name).isEmpty then .error (.blank name)
  else ((lookup d name (originDirectory d origin)).map .ok).getD (.error (.notFound name origin))

/-- The resolver that looks modules up on the disk. -/
def nodeResolver : Resolver := ⟨resolveOnDisk, nodeBuiltIns⟩

end ScriptHost.Resolution
