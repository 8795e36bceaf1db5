import MarketAlerts.Proofs.Json.Text
import MarketAlerts.Proofs.Template.Library

/-!
# Exported libraries

What a library exports is what an import reads.

- `records?_exportText`: the exported text reads as the custom templates;
- `foldl_store_custom`: storing the custom templates of a library puts its entries into another one;
- `importText_exportText`: so the export of a library makes the same one of an empty library, and
  changes nothing in the library itself.
-/

namespace MarketAlerts.Template

/-! ## Records -/

/-- The record of a template has no members but its fields, and they hold strings. -/
theorem isReadable_toJson (t : Template) : t.toJson.IsReadable (.record fields) 126 := by
  refine .obj (by simp [Json.Scope.reads, fields]) fun m hm => ?_
  simp only [List.mem_cons, List.not_mem_nil, or_false] at hm
  rcases hm with rfl | rfl | rfl
  · exact .str t.name
  · exact .str t.text
  · exact .str t.description

/-- A record does not say where its template comes from, so it reads as a custom one. -/
theorem ofJson?_toJson {t : Template} (h : t.origin = .custom) (surplus : Bool) :
    ofJson? surplus t.toJson = some t := by
  obtain ⟨name, text, description, origin⟩ := t
  cases h
  rfl

/-- Custom templates are read back from their records. -/
theorem mapM_ofJson?_toJson {ts : List Template} (h : ∀ t ∈ ts, t.origin = .custom)
    (surplus : Bool) : (ts.map toJson).mapM (ofJson? surplus) = some ts := by
  induction ts with
  | nil => rfl
  | cons t ts ih =>
    obtain ⟨ht, hts⟩ := List.forall_mem_cons.1 h
    rw [List.map_cons, List.mapM_cons, ofJson?_toJson ht, ih hts]
    rfl

namespace Library

variable {lib : Library}

/-- The exported text reads as the custom templates, whatever characters they hold. -/
theorem records?_exportText (h : lib.IsWellFormed) : records? lib.exportText = some lib.custom := by
  have hreadable : (Json.arr (lib.custom.map toJson)).IsReadable (.records fields) 127 := by
    refine .arr fun v hv => ?_
    obtain ⟨t, -, rfl⟩ := List.mem_map.1 hv
    exact isReadable_toJson t
  have hcustom : ∀ t ∈ lib.custom, t.origin = .custom := fun t ht =>
    (h.isProper_of_mem_custom ht).origin_eq
  rw [records?, exportText, Json.parse?_pretty hreadable, Option.bind_some, Json.list?,
    mapM_ofJson?_toJson hcustom]

/-! ## Imports -/

/-- Storing templates that belong under their names inserts them there. -/
theorem foldl_store_map_snd {entries : List (String × Template)}
    (h : ∀ p ∈ entries, IsProper p.1 p.2) (lib' : Library) :
    (entries.map (·.2)).foldl store lib' =
      ⟨entries.foldl (fun sorted p => Keyed.insert p.1 p.2 sorted) lib'.entries⟩ := by
  induction entries generalizing lib' with
  | nil => rfl
  | cons p entries ih =>
    obtain ⟨hp, hentries⟩ := List.forall_mem_cons.1 h
    have hcustom : { p.2 with origin := .custom } = p.2 := by rw [← hp.origin_eq]
    have hput : lib'.store p.2 = lib'.put p.1 p.2 := by rw [store, hcustom, hp.name_eq]
    rw [List.map_cons, List.foldl_cons, List.foldl_cons, hput, ih hentries, put]

/-- Storing the custom templates of a library inserts its entries. -/
theorem foldl_store_custom (h : lib.IsWellFormed) (lib' : Library) :
    lib.custom.foldl store lib' =
      ⟨lib.entries.foldl (fun sorted p => Keyed.insert p.1 p.2 sorted) lib'.entries⟩ :=
  foldl_store_map_snd h.isProper lib'

/-- Custom templates pass the checks of an import where each may replace another or none has the
name of another. -/
theorem checkRecords_custom (h : lib.IsWellFormed) {lib' : Library} {replace : Bool}
    (hreplace : replace = true ∨ lib'.custom = []) :
    lib'.checkRecords replace [] lib.custom = .ok () := by
  refine checkRecords_eq_ok_iff.2 ⟨fun t ht => ⟨(h.isProper_of_mem_custom ht).writable,
    List.not_mem_nil, hreplace.imp_right fun hnil => ?_⟩, ?_⟩
  · rw [customOf?, List.map_eq_nil_iff.1 hnil, List.lookup_nil]
  · rw [h.map_name_custom]
    exact h.isSorted.nodup_keys

/-- An export is imported template by template, and none is refused. -/
theorem perform_importText_exportText (h : lib.IsWellFormed) {lib' : Library} {replace : Bool}
    (hreplace : replace = true ∨ lib'.custom = []) :
    lib'.perform (Task.importText lib.exportText replace) =
      (.ok lib.custom.length, lib.custom.foldl store lib') := by
  rw [perform_importText, records?_exportText h]
  dsimp only
  rw [perform_importRecords, checkRecords_custom h hreplace]

/-- The text that a library exports after any requests can be imported into every library that
holds no custom templates, whether templates may be replaced or not. The import gives the number of
the custom templates and leaves the library as the first one is. Imported into that one, where
templates may be replaced, the text changes nothing. -/
theorem importText_exportText (requests : List Request) :
    let lib := after requests
    (∀ empty : Library, empty.custom = [] → ∀ replace,
      empty.perform (Task.importText lib.exportText replace) = (.ok lib.custom.length, lib)) ∧
    lib.perform (Task.importText lib.exportText true) = (.ok lib.custom.length, lib) := by
  intro lib
  have h : lib.IsWellFormed := isWellFormed_after requests
  constructor
  · intro empty hempty replace
    have hentries : empty.entries = [] := List.map_eq_nil_iff.1 hempty
    rw [perform_importText_exportText h (.inr hempty), foldl_store_custom h, hentries,
      h.isSorted.foldl_insert_nil]
  · rw [perform_importText_exportText h (.inl rfl), foldl_store_custom h,
      h.isSorted.foldl_insert_of_subset (List.Subset.refl _)]

/-- Quotes, backslashes, control characters and characters beyond 16 bits come back. -/
theorem importText_exportText_ofOddCharacters :
    let odd : Template := { name := "\"\\", text := "\x07$$\n🔔", description := "é\x7f\x00/" }
    let lib := after [.create odd false]
    lib.custom = [odd] ∧
    lib.exportText = "[\n  \x7b\n    \"name\": \"\\\"\\\\\",\n" ++
      "    \"text\": \"\\u0007$$\\n🔔\",\n" ++
      "    \"description\": \"é\x7f\\u0000/\"\n  \x7d\n]" ∧
    perform {} (Task.importText lib.exportText false) = (.ok 1, lib) ∧
    lib.perform (Task.importText lib.exportText true) = (.ok 1, lib) := by
  intro odd lib
  have hcustom : lib.custom = [odd] := by decide +kernel
  have himport := importText_exportText [.create odd false]
  refine ⟨hcustom, by decide +kernel, ?_, ?_⟩
  · exact (himport.1 {} rfl false).trans (by rw [hcustom]; rfl)
  · exact himport.2.trans (by rw [hcustom]; rfl)

end Library

end MarketAlerts.Template
