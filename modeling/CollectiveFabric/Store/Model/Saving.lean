import CollectiveFabric.Common.Files
import CollectiveFabric.Store.Model.File

/-!
# Saving a state file

`Store::save` writes its frame to `path + ".tmp"` and renames that to
`path`: three steps of the file system, each of which may fail. Two calls
on one path take theirs in any order. A step that fails throws; the write
may then have reached part of the file.
-/

namespace CollectiveFabric

namespace Store

open Common

/-- `path + ".tmp"`. -/
def tmpName (path : String) : String := path ++ ".tmp"

inductive Caller where
  | first | second
deriving DecidableEq

def Caller.other : Caller → Caller
  | .first => .second
  | .second => .first

/-- What `save` throws: an error of the store, or the exception of
`std::filesystem::rename`. -/
inductive Thrown where
  | error (e : Error)
  | filesystem

/-- Where a call stands. -/
inductive Stage where
  | ready
  | opened (handle : ℕ)
  | written
  | returned (res : SaveResult)
  | threw (e : Thrown)

structure Saving where
  files : Files String UInt8
  stage : Caller → Stage

/-- A step of a call, and whether it succeeds. A write that fails may have
written some bytes of the frame first. -/
inductive SaveStep where
  | openTmp (k : Caller) (succeeds : Bool)
  | write (k : Caller) (failsAfter : Option ℕ)
  | rename (k : Caller) (succeeds : Bool)

def SaveStep.caller : SaveStep → Caller
  | .openTmp k _ | .write k _ | .rename k _ => k

namespace Saving

/-- Two calls that have made their frames. -/
def start (files : Files String UInt8) : Saving := ⟨files, fun _ => .ready⟩

/-- The files as they are, or as a step left them, and the call at its next
stage. -/
def put (s : Saving) (files : Files String UInt8) (k : Caller) (stage : Stage) : Saving :=
  ⟨files, Function.update s.stage k stage⟩

/-- **One step of one of the calls** `save(path, state k)`. A call that is
not where the step is taken does nothing. -/
def step (path : String) (state : Caller → PersistentState) (s : Saving) : SaveStep → Saving
  | .openTmp k succeeds =>
    match s.stage k with
    | .ready =>
      if succeeds then
        let (files, handle) := s.files.openTrunc (tmpName path)
        s.put files k (.opened handle)
      else s.put s.files k (.threw (.error ⟨.io, "store: cannot open temp file"⟩))
    | _ => s
  | .write k failsAfter =>
    match s.stage k with
    | .opened handle =>
      match failsAfter with
      | none => s.put (s.files.write handle (file (state k))) k .written
      | some n =>
        s.put (s.files.write handle ((file (state k)).take n)) k
          (.threw (.error ⟨.io, "store: write failed"⟩))
    | _ => s
  | .rename k succeeds =>
    match s.stage k with
    | .written =>
      match if succeeds then s.files.rename (tmpName path) path else none with
      | some files => s.put files k (.returned (saveResult (state k)))
      | none => s.put s.files k (.threw .filesystem)
    | _ => s

end Saving

end Store

end CollectiveFabric
