/-!
# File errors

What the file system answers when a step fails.
-/

namespace Relay

inductive IoError where
  | notFound
  | alreadyExists
  | notADirectory
  | isADirectory
  /-- A file that should hold text does not. -/
  | notText
  /-- Any other failure of the machine, with its text. -/
  | other (text : String)
  deriving DecidableEq

def IoError.message : IoError → String
  | .notFound => "No such file or directory (os error 2)"
  | .alreadyExists => "File exists (os error 17)"
  | .notADirectory => "Not a directory (os error 20)"
  | .isADirectory => "Is a directory (os error 21)"
  | .notText => "stream did not contain valid UTF-8"
  | .other text => text

end Relay
