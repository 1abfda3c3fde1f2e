import Statline.Fault
import Statline.Files.Path

namespace Statline

/-- Texts kept in folders. -/
structure Files where
  folders : List Place
  files : List (Place × String)

namespace Files

def empty : Files := ⟨[], []⟩

instance : Inhabited Files := ⟨empty⟩

def find? (store : Files) (place : Place) : Option String :=
  (store.files.find? (·.1 = place)).map (·.2)

/-- The working folder and those around it are always there. -/
def hasFolder (store : Files) : Place → Bool
  | [] | "/" :: _ | ".." :: _ => true
  | place => place ∈ store.folders

/-- The place to which steps lead from a folder, through folders only. -/
def folder? (store : Files) (place : Place) : List String → Option Place
  | [] => some place
  | step :: rest =>
    if store.hasFolder (place.walk step) then folder? store (place.walk step) rest else none

/-- Follows steps from a folder and adds the folders that are missing. Those added before a file
stands in the way remain. -/
def createFolders (store : Files) (place : Place) : List String → Except Fault Place × Files
  | [] => (.ok place, store)
  | step :: rest =>
    let next := place.walk step
    if store.hasFolder next then createFolders store next rest
    else if Path.isName step && (store.find? next).isNone then
      createFolders { store with folders := next :: store.folders } next rest
    else (.error (.unreadableFile "a folder cannot be created"), store)

def write (store : Files) (place : Place) (text : String) : Files :=
  { store with files := (place, text) :: store.files.filter (·.1 ≠ place) }

/-- Whether a file of that name can be in a folder. -/
def admits (store : Files) (folder : Place) (name : String) : Bool :=
  Path.isName name && !store.hasFolder (folder.walk name)

/-- Writes a text to a path, the folders of which are created. -/
def save (store : Files) (path text : String) : Except Fault Unit × Files :=
  match Path.ofText? path with
  | none => (.error (.unreadableFile "this is no path"), store)
  | some ⟨start, folders, name⟩ =>
    match store.createFolders start folders with
    | (.error fault, store) => (.error fault, store)
    | (.ok folder, store) =>
      match name.filter (store.admits folder) with
      | some name => (.ok (), store.write (name :: folder) text)
      | none => (.error (.unreadableFile "the path is that of a folder"), store)

def load (store : Files) (path : String) : Except Fault String :=
  let found := do
    let path ← Path.ofText? path
    store.find? ((← path.name) :: (← store.folder? path.start path.folders))
  match found with
  | some text => .ok text
  | none => .error (.unreadableFile "there is no such file")

end Files

end Statline
