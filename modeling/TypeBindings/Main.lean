import TypeBindings.Command.Program

/-!
# The command line

What stands below the working directory is taken in as a disk, the program is run on it, and the files that it changed
are written back. Files that cannot be read are left out; of what stands elsewhere only the directories above the
working directory are taken in.
-/

namespace TypeBindings

/-- Adds what is below a directory to a disk. -/
partial def Disk.takeIn (disk : Disk) (directory : Place) : IO Disk := do
  let folder ← IO.FS.realPath directory.fullPath
  let mut disk := disk
  for entry in ← folder.readDir do
    let place := directory ++ [entry.fileName]
    match (← entry.path.symlinkMetadata).type with
    | .dir => disk ← (disk.insert place .directory).takeIn place
    | .file =>
      if let .ok content ← (IO.FS.readBinFile entry.path).toBaseIO then disk := disk.insert place (.file content)
    | _ => pure ()
  return disk

/-- Writes files to their places. -/
def Disk.putBack (files : List (Place × ByteArray)) : IO Unit :=
  for (place, content) in files do
    IO.FS.createDirAll (Place.fullPath place.dropLast)
    IO.FS.writeBinFile place.fullPath content

end TypeBindings

open TypeBindings in
def main (arguments : List String) : IO UInt32 := do
  let home := (Text.splitAt '/' (toString (← IO.currentDir))).filter (· ≠ "")
  let disk ← (Disk.insert ⟨home, []⟩ home .directory).takeIn home
  let ending := program disk arguments
  Disk.putBack (disk.changesFrom ending.disk)
  IO.print ending.out
  IO.eprint ending.err
  return ending.exit.toUInt32
