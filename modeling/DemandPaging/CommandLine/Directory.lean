import DemandPaging.Trace.Medium

/-!
# A directory of files

The files that a command can name, given by their contents. A name is a path from the directory: its
parts are separated by slashes, an empty part or a dot stays where it is, two dots lead back, and a
part that names a file must be the last. Directories are there as far as files are in them.

A path may lead out of the directory, by two dots or because it starts with a slash. Nothing is known
of what lies beside the directory, so no file is found there; at the root there is the null device,
an empty file.
-/

namespace DemandPaging

/-- A medium on a file. A file can be moved to offsets of 63 bits, since they are signed there.
-/
def Medium.ofFile (bytes : ByteArray) : Medium := { bytes, maxOffset := 2 ^ 63 - 1 }

/-- A medium on a directory, which can be opened and not read. -/
def Medium.ofDirectory : Medium := { Medium.ofFile .empty with readError? := some .isDirectory }

namespace CommandLine

/-- The files below a directory, by their paths. Directories are not listed: one is there if a
file lies in it. -/
structure Directory where
  /-- The path of each file and its bytes. -/
  files : List (String × ByteArray)
  /-- Whether it is the root, which two dots do not lead out of. -/
  isRoot : Bool := false

namespace Directory

/-- What is known of the root. -/
def root : Directory where
  files := [("dev/null", .empty)]
  isRoot := true

/-- What is known of the directory above. -/
def above (d : Directory) : Directory := if d.isRoot then d else { files := [] }

/-- The greatest length of a part of a path, in bytes. -/
def maxPartLength : Nat := 255

/-- The greatest length of a path, in bytes. -/
def maxPathLength : Nat := 4095

/-- Whether a part of a path stays where it is. -/
def isIdle (part : String) : Bool := part = "" || part = "."

/-- The parts of a path that lead on. -/
def partsOf (path : String) : List String :=
  (path.splitOn "/").filter (!isIdle ·)

/-- The bytes of the file at a place. -/
def file? (d : Directory) (place : List String) : Option ByteArray :=
  (d.files.find? (partsOf ·.1 = place)).map (·.2)

/-- Whether a place is a directory. -/
def isDirectory (d : Directory) (place : List String) : Bool :=
  place.isEmpty || d.files.any fun (path, _) => place.isPrefixOf (partsOf path)

/-- Follows the parts of a path from a place. A part that names a file must be the last, and is
no directory even if nothing but dots follows it. -/
def follow (d : Directory) (place : List String) : List String → Except MediumError Medium
  | [] => .ok .ofDirectory
  | part :: rest =>
    if isIdle part then follow d place rest
    else if part = ".." then
      follow (if place.isEmpty then d.above else d) place.dropLast rest
    else if maxPartLength < part.utf8ByteSize then .error .nameTooLong
    else match d.file? (place ++ [part]) with
      | some bytes => if rest.isEmpty then .ok (.ofFile bytes) else .error .notDirectory
      | none =>
        if d.isDirectory (place ++ [part]) then follow d (place ++ [part]) rest
        else .error .notFound

/-- Opens what a path names. A path that begins with a slash starts at the root, any other in
the directory. -/
def openPath (d : Directory) (path : String) : Except MediumError Medium :=
  let parts := path.splitOn "/"
  if maxPathLength < path.utf8ByteSize then .error .nameTooLong
  else (if path.startsWith "/" then root else d).follow [] parts

end Directory

end CommandLine

end DemandPaging
