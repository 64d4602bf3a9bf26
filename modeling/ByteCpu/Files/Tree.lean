import ByteCpu.Files.Path

/-!
The files that paths lead to, and what comes of reading one: it does not exist, it cannot be read,
or it has some content. Permissions are left out, and of the system outside the working directory
only a few names are known.
-/

set_option autoImplicit false

namespace ByteCpu

inductive ReadOutcome where
  | notFound
  | failed
  | content (bytes : List UInt8)
  deriving DecidableEq, Repr

namespace Files

abbrev Name := List UInt8

def here : Name := [0x2E]

def parent : Name := [0x2E, 0x2E]

/-- The names that lead to a place from the root of the system, latest first. -/
abbrev Place := List Name

/-- The working directory lies in `/tmp`, under a name that no path can spell. -/
def working : Place := [[], "tmp".toUTF8.toList]

def Place.enter (p : Place) (c : Name) : Place :=
  if c = [] ∨ c = here then p else if c = parent then p.tail else c :: p

def Place.along (p : Place) : List Name → List Place
  | [] => []
  | c :: cs => p.enter c :: Place.along (p.enter c) cs

def Place.start (p : Path) : Place × List Name :=
  match p.components with
  | [] :: cs => ([], cs)
  | cs => (working, cs)

inductive Entry where
  | file (content : List UInt8)
  | unreadable
  | directory
  | link (target : Place)
  deriving DecidableEq, Repr

def systemTexts : List (String × String) :=
  [("/etc/group", "root:x:0:"), ("/etc/hosts", "127.0.0.1"), ("/etc/os-release", "NAME="),
    ("/etc/passwd", "root:x:0:0:"), ("/proc/cpuinfo", "processor"), ("/proc/meminfo", "MemTotal:"),
    ("/proc/self/cmdline", "program"), ("/proc/self/maps", "00400000-"),
    ("/proc/self/stat", "program"), ("/proc/self/status", "Name:"), ("/proc/version", "Linux")]

/-- What is known of the system: its usual directories, devices of which one reads as empty, as
standard input does, and links of the process to its directories. -/
def system : List (Path × Entry) :=
  systemTexts.map (fun e => (Path.ofString e.1, Entry.file e.2.toUTF8.toList)) ++
  [("/dev/null", .file []), ("/dev/stdin", .file []), ("/proc/self/fd/0", .file []),
    ("/dev/fd", .link ["fd".toUTF8.toList, "self".toUTF8.toList, "proc".toUTF8.toList]),
    ("/dev/tty", .unreadable), ("/proc/self/exe", .unreadable), ("/proc/self/mem", .unreadable),
    ("/proc/self/cwd", .link working), ("/proc/self/root", .link [])].map
      (fun e => (Path.ofString e.1, e.2)) ++
    ["bin", "boot", "dev/pts", "dev/shm", "home", "lib", "lib64", "media", "mnt", "opt", "root",
      "run", "sbin", "srv", "sys", "tmp", "usr/bin", "usr/lib", "usr/local/bin", "usr/local/lib",
      "usr/sbin", "usr/share", "var/lib", "var/log", "var/tmp"].map
      fun name => (Path.ofString ("/" ++ name), Entry.directory)

structure Tree where
  entries : List (Place × Entry)
  deriving DecidableEq, Repr

namespace Tree

def ofList (named : List (Path × Entry)) : Tree :=
  let all := named ++ system
  let final := fun (p : Path) => (Place.start p).2.foldl Place.enter (Place.start p).1
  let passed := fun (p : Path) => (Place.start p).1.along (Place.start p).2
  ⟨all.map (fun e => (final e.1, e.2)) ++
    all.flatMap fun e => (passed e.1).map fun place => (place, .directory)⟩

def find? (t : Tree) (p : Place) : Option Entry := (t.entries.find? (·.1 = p)).map (·.2)

/-- The longest name, and one more than the longest path, that can be looked up. -/
def nameMax : Nat := 255
def pathMax : Nat := 4096

/-- Walks along components from a directory. A file ends the walk, and a component after it, even
an empty one, is an error. -/
def walk (t : Tree) : Place → List Name → ReadOutcome
  | _, [] => .failed
  | place, c :: cs =>
    if c = [] ∨ c = here ∨ c = parent then t.walk (place.enter c) cs
    else if nameMax < c.length then .failed
    else
      match t.find? (c :: place) with
      | none => .notFound
      | some .directory => t.walk (c :: place) cs
      | some (.link target) => t.walk target cs
      | some .unreadable => .failed
      | some (.file content) => if cs = [] then .content content else .failed

def read (t : Tree) (p : Path) : ReadOutcome :=
  if p.bytes = [] then .notFound
  else if 0 ∈ p.bytes ∨ pathMax ≤ p.bytes.length then .failed
  else t.walk (Place.start p).1 (Place.start p).2

example : (ofList [(.ofString "d/x", .file [1])]).read (.ofString "d/../d//./x") =
    .content [1] := by decide +kernel

example : (ofList [(.ofString "a/../x", .file [1])]).read (.ofString "/proc/self/cwd/a/../x") =
    .content [1] := by decide +kernel

end Tree
end Files
end ByteCpu
