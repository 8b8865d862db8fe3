import ScenarioDocs.Discovery

/-!
# Coverage

Which directories and files a source path stands for, without saying in which
order they are visited, how long their paths are or what the system refuses;
and by which path each of them is reached, since a file is opened by that path
only.
-/

namespace ScenarioDocs

/-- The directories that a recursive path from `root` enters, itself included. -/
inductive FileSystem.Enters (fs : FileSystem) (root : Location) : Location → Prop
  | root : fs.Enters root root
  | child {dir : Location} {name : Text} : fs.Enters root dir →
      fs.entry? (dir.child name) = some .directory → isSkippedDirectory name = false →
      fs.Enters root (dir.child name)

namespace SourcePath

/-- The directories whose files a path stands for. -/
inductive CoversDirectory (fs : FileSystem) (p : SourcePath) : Location → Prop
  | root {dir : Location} : fs.find p.root = .ok (dir, .directory) → CoversDirectory fs p dir
  | entered {root dir : Location} : p.recursive = true →
      fs.find p.root = .ok (root, .directory) → fs.Enters root dir → CoversDirectory fs p dir

/-- The files that a path stands for; a path to a file stands for it whatever its extension. -/
inductive Covers (fs : FileSystem) (extensions : List Text) (p : SourcePath) :
    Location → FileId → Prop
  | itself {loc : Location} {id : FileId} : fs.find p.root = .ok (loc, .file id) →
      Covers fs extensions p loc id
  | inside {dir loc : Location} {name e : Text} {id : FileId} : CoversDirectory fs p dir →
      (fs.entry? (dir.child name)).isSome → fs.fileIn? dir name = some (loc, id) →
      Path.extension? name = some e → e ∈ extensions → Covers fs extensions p loc id

inductive Reaches (fs : FileSystem) (p : SourcePath) : Visit → Prop
  | root {dir : Location} : fs.find p.root = .ok (dir, .directory) → Reaches fs p ⟨p.root, dir⟩
  | child {v : Visit} {name : Text} : p.recursive = true → Reaches fs p v →
      fs.entry? (v.loc.child name) = some .directory → isSkippedDirectory name = false →
      Reaches fs p (v.child name)

/-- The way in which the first path that stands for a directory reaches it. -/
def FirstReaches (fs : FileSystem) (paths : List SourcePath) (v : Visit) : Prop :=
  ∃ before p after, paths = before ++ p :: after ∧ p.Reaches fs v ∧
    ∀ q ∈ before, ¬q.CoversDirectory fs v.loc

/-- The files that paths stand for and that the system opens by the way they are reached. -/
inductive Opens (refused : Refusals) (fs : FileSystem) (extensions : List Text) (paths : List SourcePath) :
    Location → FileId → Prop
  | itself {p : SourcePath} {loc : Location} {id : FileId} : p ∈ paths →
      fs.find p.root = .ok (loc, .file id) → Opens refused fs extensions paths loc id
  | inside {v : Visit} {loc : Location} {name e : Text} {id : FileId} : FirstReaches fs paths v →
      (fs.entry? (v.loc.child name)).isSome → fs.find (Path.join v.path name) = .ok (loc, .file id) →
      refused .look (Path.join v.path name) = none → Path.extension? name = some e → e ∈ extensions →
      Opens refused fs extensions paths loc id

end SourcePath

/-- The system does not say what the path leads to. -/
def Refusals.Hides (refused : Refusals) (fs : FileSystem) (path : Text) : Prop :=
  (∃ e, refused .look path = some e) ∨ fs.find path = .error .nameTooLong ∨ fs.find path = .error .tooManyLinks

end ScenarioDocs
