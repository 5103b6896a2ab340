import Triage.Files.Ignore

/-!
# Walking directories

A walk yields the plain files below a root, by the path of the root and the names below it. Links
are not followed, and a directory whose path is too long for the system is left out.
-/

namespace Triage.Files

/-- The plain files below `place`, whose path is `path`; `levels` are the ignore files in force, or
none when everything counts. -/
def filesBelow (fs : FileSystem) :
    Nat → Location → Path → Option (List IgnoreLevel) → List Path
  | 0, _, _, _ => []
  | fuel + 1, place, path, levels =>
    if pathLimit ≤ path.bytes.length then []
    else
      let levels := levels.map (IgnoreLevel.ofDirectory fs place :: ·)
      (fs.namesIn place).flatMap fun (name, entry) =>
        let here := place ++ [name]
        let passedOver := match levels with
          | some ls => isPassedOver ls here entry.isDirectory
          | none => false
        if passedOver then []
        else
          match entry with
          | .file _ => [path.child name]
          | .directory => filesBelow fs fuel here (path.child name) levels
          | .link _ => []

/-- The plain files below a directory; none when it is no directory. -/
def walk? (fs : FileSystem) (root : Path) (filtered : Bool) : Option (List Path) :=
  match fs.locate true root with
  | .ok (place, some .directory) =>
    some (filesBelow fs (fs.entries.length + 1) place root
      (if filtered then some (levelsAbove fs place) else none))
  | _ => none

end Triage.Files
