import EntityTypings.Files.Path
import EntityTypings.Json.Reader
import EntityTypings.Settings.Tree
import EntityTypings.Toml.Reader

/-!
# Formats of settings files

What a settings file says depends on its format, and the extension of the file
says which format that is. There are six formats, and this library reads two of
them: documents of sections and assignments (`toml`), and objects (`json`). The
others (`yaml` or `yml`, `ini`, `ron`, `json5`) are left to readers of other
libraries.

`Formats` has the readers by their extensions, in the order in which these are
tried, which is not fixed. Settings are loaded with any `Formats`, and what is
proved of loading is proved for all of them: for the six formats, whatever the
readers of the other four are (`Formats.six`), as well as for the two that this
library has by itself (`Formats.own`). With these two alone a file of another
format has no known format.
-/

namespace EntityTypings

/-- What one source says: values by the names of settings, which can be paths. -/
abbrev Layer := List (String × SettingTree)

namespace Layer

/-- What a text says in a format, if it is well-formed. -/
abbrev Reader := String → Option Layer

/-- The reader of documents of sections and assignments. -/
def ofDocument? : Reader := fun text => (Toml.parse text).map SettingTree.ofTomlEntries

/-- The reader of objects. -/
def ofObject? : Reader := fun text =>
  match (Json.parse text).map Json.canonical with
  | some (.object fields) => some (SettingTree.ofJsonFields fields)
  | _ => none

/-- The formats of settings files. -/
class Formats where
  /-- The readers by the extensions of their files, in the order in which these are tried. -/
  readers : List (String × Reader)
  /-- No extension has two readers. -/
  nodup : (readers.map Prod.fst).Nodup
  /-- The extensions are extensions of paths. -/
  isExtension : ∀ r ∈ readers, Path.IsExtension r.1
  /-- Documents are among the formats. -/
  document_mem : ("toml", ofDocument?) ∈ readers

/-- What a text says in the format of an extension. -/
def parse? [Formats] (extension text : String) : Option Layer :=
  (Formats.readers.lookup extension).bind (· text)

/-- A text is read by the reader that an extension has. -/
theorem parse?_of_mem [Formats] {extension : String} {read : Reader}
    (h : (extension, read) ∈ Formats.readers) (text : String) :
    parse? extension text = read text := by
  rw [parse?, lookup_eq_some_of_mem Formats.nodup h, Option.bind_some]

namespace Formats

/-- Whether files with an extension have a format. -/
def knows [Formats] (extension : String) : Bool := (readers.lookup extension).isSome

/-- The formats that this library reads by itself. -/
instance own : Formats where
  readers := [("toml", ofDocument?), ("json", ofObject?)]
  nodup := by decide
  isExtension r hr :=
    (by decide : ∀ e ∈ ["toml", "json"], Path.IsExtension e) r.1 (List.mem_map_of_mem hr)
  document_mem := List.mem_cons_self

/-- Readers of the formats that are left to other libraries. -/
structure OtherReaders where
  /-- The reader of `yaml` and `yml`. -/
  yaml : Reader
  /-- The reader of `ini`. -/
  ini : Reader
  /-- The reader of `ron`. -/
  ron : Reader
  /-- The reader of `json5`. -/
  json5 : Reader

/-- The readers of the six formats. -/
def OtherReaders.all (others : OtherReaders) : List (String × Reader) :=
  [("toml", ofDocument?), ("json", ofObject?), ("yaml", others.yaml), ("yml", others.yaml),
    ("ini", others.ini), ("ron", others.ron), ("json5", others.json5)]

/-- The six formats, whose extensions are tried in any order. -/
abbrev six (others : OtherReaders) (readers : List (String × Reader))
    (h : readers.Perm others.all) : Formats where
  readers := readers
  nodup := (h.map Prod.fst).nodup_iff.2
    (by decide : ["toml", "json", "yaml", "yml", "ini", "ron", "json5"].Nodup)
  isExtension r hr :=
    (by decide : ∀ e ∈ ["toml", "json", "yaml", "yml", "ini", "ron", "json5"],
      Path.IsExtension e) r.1 (List.mem_map_of_mem (h.mem_iff.1 hr))
  document_mem := h.mem_iff.2 List.mem_cons_self

end Formats

end Layer

end EntityTypings
