import ScenarioDocs.Text.Basic

/-! # What the system answers when a file operation fails -/

namespace ScenarioDocs

inductive SystemError
  | notFound
  | busy
  | alreadyExists
  | notDirectory
  | isDirectory
  | nameTooLong
  | tooManyLinks
  /-- The bytes read are not UTF-8. -/
  | notUtf8
  | nulInPath
  /-- Any other failure, told by its words only. -/
  | described (words : Text)
  deriving DecidableEq

def SystemError.message : SystemError → Text
  | .notFound => "No such file or directory (os error 2)"
  | .busy => "Device or resource busy (os error 16)"
  | .alreadyExists => "File exists (os error 17)"
  | .notDirectory => "Not a directory (os error 20)"
  | .isDirectory => "Is a directory (os error 21)"
  | .nameTooLong => "File name too long (os error 36)"
  | .tooManyLinks => "Too many levels of symbolic links (os error 40)"
  | .notUtf8 => "stream did not contain valid UTF-8"
  | .nulInPath => "file name contained an unexpected NUL byte"
  | .described words => words

end ScenarioDocs
