import MetadataSearch.Proofs.Engine.FileItems

/-!
# What a filter sees of a file

A filter is evaluated on the description of a file and on its text. Of the attributes that queries built
here ask for, the date is the one of the file (`FoundFile.source_modificationDate`) and the text is there
for text files only (`FoundFile.source_textContent`).

**Theorem (`FoundFile.source_eq`).** Two files that agree in their last name, content and dates differ in
no attribute but the path.
-/

namespace MetadataSearch

namespace Item

/-- The description of a file below its path. -/
def fileEntries (name : String) (type : ContentType) (content : List UInt8) (dates : Dates) :
    List (String × RawValue) :=
  [ (Attribute.fileName, .string name),
    (Attribute.displayName, .string name),
    (Attribute.fileSize, sizeValue content.length),
    (Attribute.contentType, .string type.identifier),
    (Attribute.contentTypeTree, .array (type.tree.map .string)) ] ++ dates.attributes

theorem get?_ofNode_file (path : Path) (content : List UInt8) (dates : Dates) (name : String) :
    (ofNode path (.file content dates)).get? name =
      Fields.find? name ((Attribute.path, .string path.text) ::
        fileEntries ((Path.fileName? path).elim "" Path.text) (ContentType.ofPath path false) content
          dates) := by
  have hnames : (Fields.names ((Attribute.path, RawValue.string path.text) ::
      fileEntries ((Path.fileName? path).elim "" Path.text) (ContentType.ofPath path false) content
        dates)).Nodup := by
    obtain ⟨modified, created⟩ := dates
    cases created with
    | none =>
      simp only [Fields.names, fileEntries, Dates.attributes, Option.elim_none, List.cons_append,
        List.nil_append, List.map_cons, List.map_nil]
      decide
    | some created =>
      simp only [Fields.names, fileEntries, Dates.attributes, Option.elim_some, List.cons_append,
        List.nil_append, List.map_cons, List.map_nil]
      decide
  exact (get?_ofList _ name).trans (Fields.find?_reverse hnames name)

end Item

theorem ContentType.ofPath_congr {path other : Path} (h : Path.fileName? path = Path.fileName? other) :
    ofPath path false = ofPath other false := by
  simp only [ofPath, Path.extension?, h]

namespace FoundFile

theorem source_modificationDate (limit : Nat) (file : FoundFile) :
    file.source limit Attribute.contentModificationDate = some (.date file.dates.modified) := by
  rw [source, if_neg (by decide), item, node, Item.get?_ofNode_file]
  rfl

theorem source_textContent (limit : Nat) (file : FoundFile) :
    file.source limit Attribute.textContent = (file.text? limit).map .string := by
  rw [source, if_pos rfl]

/-- Apart from their paths, files of one name, content and dates are described alike. -/
theorem get?_item_eq {file other : FoundFile} (hname : Path.fileName? file.path = Path.fileName? other.path)
    (hcontent : file.content = other.content) (hdates : file.dates = other.dates) {name : String}
    (hpath : name ≠ Attribute.path) : file.item.get? name = other.item.get? name := by
  rw [item, item, node, node, Item.get?_ofNode_file, Item.get?_ofNode_file, hname,
    ContentType.ofPath_congr hname, hcontent, hdates, Fields.find?, Fields.find?,
    if_neg hpath.symm, if_neg hpath.symm]

/-- Apart from their paths, a filter sees no difference. -/
theorem source_eq {file other : FoundFile} (hname : Path.fileName? file.path = Path.fileName? other.path)
    (hcontent : file.content = other.content) (hdates : file.dates = other.dates) (limit : Nat)
    {name : String} (hpath : name ≠ Attribute.path) :
    file.source limit name = other.source limit name := by
  by_cases htext : name = Attribute.textContent
  · rw [htext, source_textContent, source_textContent, text?, text?, isText, isText,
      ContentType.ofPath_congr hname, hcontent]
  · rw [source, source, if_neg htext, if_neg htext, get?_item_eq hname hcontent hdates hpath]

end FoundFile

end MetadataSearch
