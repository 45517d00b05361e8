/-!
# Errors of the file system
-/

namespace LiveMarkup.Disk

/-- Why the file system did not do what it was asked for. -/
inductive SystemError where
  | notFound
  | notADirectory
  | isADirectory
  | alreadyExists
  /-- One link has led to the next too often. -/
  | tooManyLinks
  /-- Any other reason, in the words of the system. -/
  | other (text : String)
  deriving DecidableEq, Repr

/-- The reason in words. -/
def SystemError.text : SystemError → String
  | notFound => "No such file or directory (os error 2)"
  | alreadyExists => "File exists (os error 17)"
  | notADirectory => "Not a directory (os error 20)"
  | isADirectory => "Is a directory (os error 21)"
  | tooManyLinks => "Too many levels of symbolic links (os error 40)"
  | other text => text

end LiveMarkup.Disk
