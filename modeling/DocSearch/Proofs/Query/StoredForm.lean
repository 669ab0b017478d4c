import DocSearch.Proofs.Calendar.WrittenTime
import DocSearch.Proofs.Json.Written
import DocSearch.Proofs.Sorted.Entries
import DocSearch.Query.Encoding

/-!
# The stored form of query descriptions

Every description is read from the data that states it (`Description.ofValue?_toValue`).

* The data is a table of fields (`Description.record_of?_toValue`), in which each field is found
  under its name (`Description.get?_record`).
* Each kind of field is read as it was written: texts and times that may be missing, sets of texts,
  domains, properties, and the two numbers of a page.

The data has no part that JSON cannot express (`Description.isPlain_toValue`), so every description
is read from its JSON text, too (`Description.read?_write`).
-/

namespace DocSearch

theorem Value.asTextSet?_ofTextSet (s : SortedSet String) : asTextSet? (ofTextSet s) = some s := by
  rw [ofTextSet, asTextSet?, asTexts?_map_text, Option.map_some, SortedSet.ofList_toList]

theorem Value.isPlain_ofTextSet (s : SortedSet String) : Json.isPlain (ofTextSet s) = true :=
  Json.arePlain_map (fun _ => rfl) s.toList

theorem Domain.ofValue?_label (d : Domain) : ofValue? (.text d.label) = some d := by
  cases d <;> rfl

theorem Timestamp.ofValue?_text (t : Timestamp) : ofValue? (.text t.text) = some t := by
  rw [ofValue?, Value.asText?, Option.bind_some, t.read?_text]

namespace Description

variable (q : Description)

/-- The fields of the data that states the description `q`. -/
def fields : List (String × Value) :=
  match q.toValue with
  | .table fs => fs
  | _ => []

/-- The data that states a description is a record of its fields. -/
def record : Record := ⟨true, q.fields⟩

theorem record_of?_toValue : Record.of? fieldNames q.toValue = some q.record :=
  Record.of?_table rfl (by decide)

/-- Every field is found under its `name`, as no two names are the same. -/
theorem get?_record {name : String} {v : Value} (h : (name, v) ∈ q.fields) :
    q.record.get? name = some v :=
  (lookup_eq_some_iff_mem (show (q.fields.map (·.1)).Nodup from (by decide : fieldNames.Nodup))).mpr
  h

/-- A text that may be missing is read as it was written. -/
theorem optional_text (name : String) (s : Option String)
    (h : (name, .ofOption .text s) ∈ q.fields) :
    q.record.optional name Value.asText? = some s :=
  Record.optional_ofOption (q.get?_record h) (fun _ => rfl) (fun _ heq => nomatch heq)

theorem optional_time (name : String) (t : Option Timestamp)
    (h : (name, .ofOption (fun t => .text t.text) t) ∈ q.fields) :
    q.record.optional name Timestamp.ofValue? = some t :=
  Record.optional_ofOption (q.get?_record h) Timestamp.ofValue?_text (fun _ heq => nomatch heq)

/-- A set of texts is read as it was written, so its `default` does not matter. -/
theorem withDefault_textSet (name : String) (s default : SortedSet String)
    (h : (name, .ofTextSet s) ∈ q.fields) :
    q.record.withDefault name default Value.asTextSet? = some s :=
  Record.withDefault_eq (q.get?_record h) (Value.asTextSet?_ofTextSet s)

theorem required_domains :
    (q.record.required "domains" fun v => v.asList?.bind (·.mapM Domain.ofValue?)) =
      some q.domains.toList :=
  Record.required_eq (q.get?_record (.head _))
  (Value.mapM_map_some _ _ Domain.ofValue?_label q.domains.toList)

theorem withDefault_properties :
    (q.record.withDefault "properties" .empty fun v => v.asTextTable?.map .ofList) =
      some q.properties := by
  have hfield :
      ("properties", Value.table (q.properties.entries.map fun e =>
        (e.1, .text e.2))) ∈ q.fields := by
    simp [fields, toValue]
  refine Record.withDefault_eq (q.get?_record hfield) ?_
  rw [Value.asTextTable?_map_text, Option.map_some, SortedMap.ofList_entries]

theorem withDefault_offset : q.record.withDefault "offset" 0 Value.asWord? = some q.offset :=
  Record.withDefault_eq (q.get?_record (v := .int q.offset.toNat) (by simp [fields, toValue]))
    (Value.asWord?_int _)

theorem optional_limit : q.record.optional "limit" Value.asWord? = some q.limit := by
  have hfield : q.record.get? "limit" = some (.ofOption (fun n : UInt64 => .int n.toNat) q.limit) :=
    q.get?_record (by simp [fields, toValue])
  exact Record.optional_ofOption hfield Value.asWord?_int (fun _ heq => nomatch heq)

/-- A description is read from the data that states it. -/
theorem ofValue?_toValue : ofValue? q.toValue = some q := by
  have hname := q.optional_text "name" q.name (by simp [fields, toValue])
  have hcontent := q.optional_text "content" q.content (by simp [fields, toValue])
  have hauthor := q.optional_text "author" q.author (by simp [fields, toValue])
  have hmimeType := q.optional_text "mime_type" q.mimeType (by simp [fields, toValue])
  have hpath := q.optional_text "path" q.path (by simp [fields, toValue])
  have hsubject := q.optional_text "mail_subject" q.mailSubject (by simp [fields, toValue])
  have hsender := q.optional_text "mail_from" q.mailFrom (by simp [fields, toValue])
  have hrecipient := q.optional_text "mail_to" q.mailTo (by simp [fields, toValue])
  have hkeywords := q.withDefault_textSet "keywords" q.keywords .empty (by simp [fields, toValue])
  have hcategories :=
    q.withDefault_textSet "categories" q.categories .empty (by simp [fields, toValue])
  have hsince := q.optional_time "last_modified_from" q.lastModifiedFrom (by simp [fields, toValue])
  have huntil := q.optional_time "last_modified_to" q.lastModifiedTo (by simp [fields, toValue])
  rw [ofValue?, record_of?_toValue]
  rw [Option.bind_eq_bind, Option.bind_some, required_domains, hname, hcontent, hauthor, hmimeType,
    hpath, hsubject, hsender, hrecipient, hkeywords, hcategories, withDefault_properties, hsince,
    huntil, withDefault_offset, optional_limit]
  exact congrArg (fun s => some { q with domains := s }) (SortedSet.ofList_toList q.domains)

/-! ## JSON -/

/-- The data that states a description is of texts, integers, lists and tables. -/
theorem isPlain_toValue : Json.isPlain q.toValue = true := by
  have htext : ∀ s : Option String, Json.isPlain (.ofOption .text s) = true :=
    Json.isPlain_ofOption fun _ => rfl
  have htime : ∀ t : Option Timestamp, Json.isPlain (.ofOption (fun t => .text t.text) t) = true :=
    Json.isPlain_ofOption fun _ => rfl
  have hlimit : Json.isPlain (.ofOption (fun n : UInt64 => .int n.toNat) q.limit) = true :=
    Json.isPlain_ofOption (fun _ => rfl) q.limit
  have hdomains : Json.isPlain (.list (q.domains.toList.map fun d => .text d.label)) = true :=
    Json.arePlain_map (fun _ => rfl) q.domains.toList
  have hproperties :
      Json.isPlain (.table (q.properties.entries.map fun e => (e.1, .text e.2))) = true :=
    Json.areFieldsPlain_map (fun _ => rfl) q.properties.entries
  have hoffset : Json.isPlain (.int q.offset.toNat) = true := rfl
  rw [toValue, Json.isPlain]
  simp only [Json.areFieldsPlain, htext, htime, hlimit, hdomains, hproperties, hoffset,
    Value.isPlain_ofTextSet, Bool.and_self]

/-- A description is read from its JSON text. -/
theorem read?_write : read? q.write = some q := by
  rw [read?, write, Json.read?_write q.isPlain_toValue, Option.bind_some, ofValue?_toValue]

end Description

end DocSearch
