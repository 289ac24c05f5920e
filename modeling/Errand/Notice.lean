import Errand.Value.Printer

/-! # Notices

What the library reports while it works: draws for those who follow a session, and warnings about
what is missing or cut off.
-/

namespace Errand

inductive Notice
  | drew (pool : Text) (name : Value) (left : Nat)
  | reusing (name : Value) (keycode : Text)
  | nestedTooDeep (limit : Nat) (text : Text)
  | picked (prototype : Text)
  | catalogFileMissing (path : Text)
  | prototypesUnreadable (path : Text)

namespace Notice

def isWarning : Notice → Bool
  | .drew .. | .reusing .. | .picked .. => false
  | .nestedTooDeep .. | .catalogFileMissing .. | .prototypesUnreadable .. => true

def message : Notice → Text
  | .drew pool name left =>
    "Drew ".toList ++ pool ++ ' ' :: name.described ++ " (".toList ++ Text.decimal left ++
      " left)".toList
  | .reusing name keycode => "Reusing ".toList ++ name.described ++ " for ".toList ++ keycode
  | .nestedTooDeep limit text =>
    "Metadata nested deeper than ".toList ++ Text.decimal limit ++
      " levels, left as is: ".toList ++ Text.quoted text
  | .picked prototype => "Picked prototype ".toList ++ Text.quoted prototype
  | .catalogFileMissing path => "Catalog file missing: ".toList ++ path
  | .prototypesUnreadable path => "Could not read prototype file ".toList ++ path

end Notice

end Errand
