import Mathlib.Data.List.Destutter
import Mathlib.Data.List.Lex
import Rtvbp.Lib.FileTree

/-!
# The output of the generator

`write_files`, `synchronize_files`, `check_files` and `check_owned_files` of
`spec/crates/rtvbp-spec-gen/src/write.rs`. The output directory is a file tree, or is not there; a path on disk is
what comes behind `out_dir`. The names of the operating system and their order are left open. A call fails for the
reasons that are in the tree, and a function that fails leaves what it has done so far.
-/

namespace Rtvbp.Spec

open Rtvbp.Lib

/-- `Component` of a path. -/
inductive Component (ν : Type) where
  | drive
  | rootDir
  | curDir
  | parentDir
  | normal (name : ν)
  deriving DecidableEq

/-- `GeneratedFile`. -/
structure GeneratedFile (ν : Type) where
  path : List (Component ν)
  bytes : List UInt8

/-- `WriteError`. -/
inductive WriteError (ν : Type) where
  | unsafePath (path : List (Component ν))
  | duplicatePath (path : List (Component ν))
  | failed (path : List ν) (source : Failure)
  | drift (paths : List (List ν))

/-- A directory on disk. -/
structure Directory (ν : Type) where
  entries : List (ν × Node ν (List UInt8))
  distinct : FileTree.Distinct entries

variable {ν : Type}

/-! ## Paths -/

/-- The name of a normal component. -/
def Component.name? : Component ν → Option ν
  | normal name => some name
  | _ => none

/-- The names of a path; a safe path consists of them. -/
def names (path : List (Component ν)) : List ν := path.filterMap Component.name?

/-- `safe` of `validate_paths`. -/
def safePath (path : List (Component ν)) : Bool := !path.isEmpty && path.all fun component => component.name?.isSome

section Validate

variable [DecidableEq ν]

/-- The loop of `validate_paths`, where `seen` are the paths of the files before. -/
def validateFrom (seen : List (List (Component ν))) : List (GeneratedFile ν) → Except (WriteError ν) Unit
  | [] => .ok ()
  | file :: files =>
    if !safePath file.path then .error (.unsafePath file.path)
    else if file.path ∈ seen then .error (.duplicatePath file.path)
    else validateFrom (file.path :: seen) files

/-- `validate_paths`. -/
def validatePaths (files : List (GeneratedFile ν)) : Except (WriteError ν) Unit := validateFrom [] files

end Validate

/-- The paths of the files. -/
def expectedPaths (files : List (GeneratedFile ν)) : List (List ν) := files.map fun file => names file.path

/-! ## The disk -/

variable [DecidableEq ν]

namespace Directory

def empty : Directory ν := ⟨[], trivial⟩

/-- `fs::create_dir_all`. -/
def createDirAll (dir : Directory ν) (path : List ν) : Except Failure (Directory ν) :=
  match h : FileTree.makeDirs dir.entries path with
  | .ok es => .ok ⟨es, dir.distinct.makeDirs h⟩
  | .error e => .error e

/-- `fs::write`. -/
def write (dir : Directory ν) (path : List ν) (bytes : List UInt8) : Except Failure (Directory ν) :=
  match h : FileTree.write bytes dir.entries path with
  | .ok es => .ok ⟨es, dir.distinct.alter h⟩
  | .error e => .error e

/-- `fs::remove_file`. -/
def removeFile (dir : Directory ν) (path : List ν) : Except Failure (Directory ν) :=
  match h : FileTree.remove dir.entries path with
  | .ok es => .ok ⟨es, dir.distinct.alter h⟩
  | .error e => .error e

end Directory

/-- The output directory, if it is there. -/
abbrev Output (ν : Type) := Option (Directory ν)

/-- `fs::read`. -/
def Output.read (out : Output ν) (path : List ν) : Except Failure (List UInt8) :=
  match out with
  | none => .error .notFound
  | some dir => FileTree.read dir.entries path

/-- `output_differs`. -/
def outputDiffers (out : Output ν) (path : List ν) (expected : List UInt8) : Except (WriteError ν) Bool :=
  match out.read path with
  | .ok actual => .ok (actual ≠ expected)
  | .error .notFound => .ok true
  | .error source => .error (.failed path source)

/-! ## Writing -/

/-- One round of the loop of `write_files`. -/
def writeFile (out : Output ν) (file : GeneratedFile ν) : Except (WriteError ν) Unit × Output ν :=
  let path := names file.path
  match (out.getD .empty).createDirAll path.dropLast with
  | .error source => (.error (.failed path.dropLast source), out)
  | .ok dir =>
    match outputDiffers (some dir) path file.bytes with
    | .error error => (.error error, some dir)
    | .ok false => (.ok (), some dir)
    | .ok true =>
      match dir.write path file.bytes with
      | .error source => (.error (.failed path source), some dir)
      | .ok dir => (.ok (), some dir)

/-- The loop of `write_files`. -/
def writeAll (out : Output ν) : List (GeneratedFile ν) → Except (WriteError ν) Unit × Output ν
  | [] => (.ok (), out)
  | file :: files =>
    match writeFile out file with
    | (.error error, out) => (.error error, out)
    | (.ok (), out) => writeAll out files

/-- `write_files`. -/
def writeFiles (out : Output ν) (files : List (GeneratedFile ν)) : Except (WriteError ν) Unit × Output ν :=
  match validatePaths files with
  | .error error => (.error error, out)
  | .ok () => writeAll out files

/-! ## Synchronizing -/

/-- The loop of `synchronize_files` over the owned files. -/
def removeStale (expected : List (List ν)) (out : Output ν) : List (List ν) → Except (WriteError ν) Unit × Output ν
  | [] => (.ok (), out)
  | relative :: rest =>
    if relative ∈ expected then removeStale expected out rest
    else
      match out with
      | none => (.error (.failed relative .notFound), none)
      | some dir =>
        match dir.removeFile relative with
        | .error source => (.error (.failed relative source), some dir)
        | .ok dir => removeStale expected (some dir) rest

section Owned

variable {ν : Type} [LinearOrder ν]

/-- `sort` of paths. -/
def sortPaths (paths : List (List ν)) : List (List ν) := paths.mergeSort fun a b => decide (a ≤ b)

/-- `owned_files`. -/
def ownedFiles (out : Output ν) (owns : List ν → Bool) : List (List ν) :=
  match out with
  | none => []
  | some dir => sortPaths (FileTree.scan owns [] dir.entries)

/-- `synchronize_files`. -/
def synchronizeFiles (out : Output ν) (files : List (GeneratedFile ν)) (owns : List ν → Bool) :
    Except (WriteError ν) Unit × Output ν :=
  match validatePaths files with
  | .error error => (.error error, out)
  | .ok () =>
    match removeStale (expectedPaths files) out (ownedFiles out owns) with
    | (.error error, out) => (.error error, out)
    | (.ok (), out) => writeFiles out files

/-! ## Checking -/

/-- The paths of the files that differ on disk. -/
def differing (out : Output ν) : List (GeneratedFile ν) → Except (WriteError ν) (List (List ν))
  | [] => .ok []
  | file :: files => do
    let differs ← outputDiffers out (names file.path) file.bytes
    let paths ← differing out files
    return if differs then names file.path :: paths else paths

/-- The result of a check. -/
def reportDrift (paths : List (List ν)) : Except (WriteError ν) Unit :=
  if paths.isEmpty then .ok () else .error (.drift paths)

/-- `check_files`. -/
def checkFiles (out : Output ν) (files : List (GeneratedFile ν)) : Except (WriteError ν) Unit := do
  validatePaths files
  reportDrift (← differing out files)

/-- `check_owned_files`. -/
def checkOwnedFiles (out : Output ν) (files : List (GeneratedFile ν)) (owns : List ν → Bool) :
    Except (WriteError ν) Unit := do
  validatePaths files
  let stale := (ownedFiles out owns).filter fun path => path ∉ expectedPaths files
  let paths ← differing out files
  reportDrift ((sortPaths (stale ++ paths)).destutter (· ≠ ·))

end Owned

end Rtvbp.Spec
