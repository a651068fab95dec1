/-
# Where tables live

A table is kept in one file.  The configuration says in which folder the files are and with
which extension their names end; a query may leave the extension out.
-/

namespace FlatQuery

/-- The folder of the table files, and the extension of their names, without its dot. -/
structure Config where
  folder : String := "."
  extension : String := "csv"
deriving DecidableEq, Repr

namespace Config

/-- The configuration with another extension, which may be given with dots before it. -/
def withExtension (config : Config) (extension : String) : Config :=
  { config with extension := String.ofList (extension.toList.dropWhile (· == '.')) }

/-- The full name of a table: the extension is added unless the name already ends with it. -/
def fullName (config : Config) (table : String) : String :=
  let ending := "." ++ config.extension
  if ending.toList.isSuffixOf table.toList then table else table ++ ending

/-- The path of a file in the folder.  A name that starts with a slash is a path already, and
no slash is put after a folder that ends with one or is not named. -/
def path (config : Config) (name : String) : String :=
  if name.toList.head? = some '/' then name
  else if config.folder.toList.getLast?.all (· == '/') then config.folder ++ name
  else config.folder ++ "/" ++ name

end Config

end FlatQuery
