import KeyLayers.FileSystem

/-!
# Changes by others

Other programs change the same file system: they write files into directories
that are still missing, take away or move whole trees, mark entries and make
links.  These changes are total; what cannot be done is not done.
-/

namespace KeyLayers.FileSystem

variable (files : FileSystem)

/-- Makes the directory of a path, if that is possible. -/
def withDirectory (path : Path) : FileSystem :=
  (files.makeDirectories path.directory).2

/-- Writes a file and makes the directories it is in. -/
def add (path : Path) (content : ByteArray) : FileSystem :=
  let files := files.withDirectory path
  (files.write path content).toOption.getD files

/-- Makes a link in a directory that is there, if its name is free. -/
def addLink (path target : Path) : FileSystem :=
  match files.locate false path with
  | .ok place =>
      match files.entryAt? place with
      | some _ => files
      | none => files.put place { node := .link target }
  | .error _ => files

/-- Takes away what is at some of the places. -/
def eraseWhere (isGone : Place → Bool) : FileSystem where
  entries := files.entries.filter fun item => !isGone item.1
  workingPlace := files.workingPlace
  nodup := files.nodup.sublist (List.filter_sublist.map _)

/-- Takes away what a path leads to, with all that is below it. -/
def removeTree (path : Path) : FileSystem :=
  match files.locate false path with
  | .ok place => files.eraseWhere place.isPrefixOf
  | .error _ => files

/-- Moves what one path leads to, with all that is below it, to another one. -/
def move (source target : Path) : FileSystem :=
  match files.locate false source, files.locate false target with
  | .ok old, .ok new =>
      let moved := files.entries.filter fun item => old.isPrefixOf item.1
      moved.foldl (fun files item => files.put (new ++ item.1.drop old.length) item.2)
        (files.eraseWhere fun place => old.isPrefixOf place || new.isPrefixOf place)
  | _, _ => files

/-- Marks what a path leads to as read-only. -/
def markReadOnly (path : Path) : FileSystem :=
  match files.locate true path with
  | .ok place =>
      match files.entryAt? place with
      | some entry => files.put place { entry with isReadOnly := true }
      | none => files
  | .error _ => files

/-! ## Survey -/

/--
The files below a place with their texts, as deep as the first argument says.

The second place is the one under which they are shown.  What has no text is
shown all the same.
-/
def textsBelow (depth : Nat) (place shown : Place) : List (Place × Option String) :=
  match depth with
  | 0 => []
  | depth + 1 =>
      (files.namesAt place).flatMap fun name =>
        let here := shown ++ [name]
        match files.walk true greatestLinks place [name] with
        | .error _ => [(here, none)]
        | .ok next =>
            match (files.entryAt? next).map Entry.node with
            | some .directory => textsBelow depth next here
            | some (.file content) => [(here, String.fromUTF8? content)]
            | _ => [(here, none)]

/-- The files below a place with their texts. -/
def texts (place : Place) : List (Place × Option String) :=
  files.textsBelow (files.entries.length + 1) place []

end KeyLayers.FileSystem
