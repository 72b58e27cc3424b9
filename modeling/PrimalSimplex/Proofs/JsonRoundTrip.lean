import PrimalSimplex.Proofs.JsonNumber
import PrimalSimplex.Settings.Json
import PrimalSimplex.Trace.Json

/-!
# What is stored as JSON is read back

A trace goes through two layers on its way to a text and back. Structures become objects: this layer
only has to find the fields again, which it does since their names differ (`fields?_record`). Values
become texts: this layer is the round trip of printed values (`Json.IsPrinted`), with white space or
without.

Nothing is assumed of the shapes of a trace or of the characters in its names. What has to be
assumed is said about the numbers in it: indices are machine words, and what is written for the
values of the number type is read as the same values again.
-/

namespace PrimalSimplex

open Json

/-! ## Structures -/

namespace Json

section Structures

variable {α β : Type} {encode : α → Json} {decode : Json → Option α} {items : List α}

theorem mapM_map_eq_some {γ : Type} {f : β → Option γ} {g : α → β} {result : α → γ}
    (h : ∀ item ∈ items, f (g item) = some (result item)) :
    (items.map g).mapM f = some (items.map result) := by
  induction items with
  | nil => rfl
  | cons item items ih =>
    have hitem := h item List.mem_cons_self
    have hitems := ih fun next hnext => h next (List.mem_cons_of_mem _ hnext)
    simp [List.mapM_cons, hitem, hitems]

theorem list?_ofList (h : ∀ item ∈ items, decode (encode item) = some item) :
    list? decode (ofList encode items) = some items :=
  (mapM_map_eq_some h).trans (congrArg some (List.map_id' items))

/-- What is never written as null may be absent. -/
theorem option?_ofOption {value : Option α} (hnull : ∀ item ∈ value, encode item ≠ null)
    (h : ∀ item ∈ value, decode (encode item) = some item) :
    option? decode (ofOption encode value) = some value := by
  cases value with
  | none => rfl
  | some item =>
    rw [ofOption, option?, h item rfl, Option.map_some]
    exact hnull item rfl

/-- A field is found under its name when no other field has the name. -/
theorem valuesAt_record {fields : List (String × Json)} (hnodup : (fields.map Prod.fst).Nodup)
    {field : String × Json} (h : field ∈ fields) :
    valuesAt field.1 (fields.map fun field => (some field.1, field.2)) = [field.2] := by
  show ((fields.map fun field => (some field.1, field.2)).filter
    fun member => member.1 == some field.1).map Prod.snd = [field.2]
  induction fields with
  | nil => cases h
  | cons first fields ih =>
    obtain ⟨hfresh, hnodup⟩ := List.nodup_cons.mp hnodup
    rcases List.mem_cons.mp h with rfl | h
    · -- none of the other fields has the name
      have hrest : ∀ other ∈ fields, ¬ other.1 = field.1 := fun other hother hname =>
        hfresh (hname ▸ List.mem_map_of_mem hother)
      have hnone : (fields.map fun field => (some field.1, field.2)).filter
          (fun member => member.1 == some field.1) = [] := by
        rw [List.filter_eq_nil_iff, List.forall_mem_map]
        simpa using hrest
      rw [List.map_cons, List.filter_cons_of_pos (by simp), hnone]
      rfl
    · have hne : ¬ first.1 = field.1 := fun hname =>
        hfresh (hname ▸ List.mem_map_of_mem h)
      rw [List.map_cons, List.filter_cons_of_neg (by simpa using hne)]
      exact ih hnodup h

/-- **The fields of a record are found again**, also by a structure that refuses others. -/
theorem fields?_record (openness : Openness) {fields : List (String × Json)}
    {names : List String} (hnames : fields.map Prod.fst = names) (hnodup : names.Nodup) :
    (record fields).fields? openness names = some (fields.map fun field => some field.2) := by
  subst hnames
  have hfields : ∀ field ∈ fields,
      field? (fields.map fun field => (some field.1, field.2)) field.1 = some (some field.2) := by
    intro field hfield
    rw [field?, valuesAt_record hnodup hfield]
  unfold fields? record
  refine (if_pos ?_).trans (mapM_map_eq_some hfields)
  rw [List.all_map, List.all_eq_true]
  intro field hfield
  have hmem : field.1 ∈ fields.map Prod.fst := List.mem_map_of_mem hfield
  simp [hmem]

end Structures

end Json

/-! ## Traces -/

namespace Names

theorem ofJson?_toJson {names : Names} (h : names.decisionCount < 2 ^ 64) :
    ofJson? names.toJson = some names := by
  have hfields : names.toJson.fields? .opened ["nr_decision_variables", "columns"] =
      some [some (.ofNat names.decisionCount), some (.ofList .ofString names.columns)] :=
    fields?_record .opened rfl (by decide)
  have hcolumns : list? text? (ofList ofString names.columns) = some names.columns :=
    list?_ofList fun _ _ => rfl
  simp [ofJson?, hfields, required?, nat?_ofNat h, hcolumns]

theorem isPrinted_toJson (names : Names) : names.toJson.IsPrinted := by
  refine isPrinted_record ?_
  simp only [List.forall_mem_cons]
  exact ⟨isPrinted_ofNat _, isPrinted_ofList fun _ _ => isPrinted_ofString _,
    List.forall_mem_nil _⟩

end Names

section Traces

variable {F : Type}

namespace Pivot

/-- The indices of a pivot. -/
def indices (pivot : Pivot F) : List Nat := [pivot.row, pivot.column, pivot.leaving]

end Pivot

namespace Record

/-- The indices of a record, its own number among them. -/
def indices (record : Record F) : List Nat :=
  record.iteration :: (record.basis ++ record.pivot.toList.flatMap Pivot.indices)

/-- The values of the number type in a record. -/
def numbers (record : Record F) : List F :=
  record.rows.flatten ++ record.pivot.toList.map Pivot.element

end Record

namespace Trace

/-- The indices and counts of a trace. -/
def indices (trace : Trace F) : List Nat :=
  trace.names.decisionCount :: trace.records.flatMap Record.indices

/-- The values of the number type in a trace. -/
def numbers (trace : Trace F) : List F := trace.records.flatMap Record.numbers

end Trace

variable [JsonNumeral F] [Finiteness F] [LawfulJsonNumeral F]

namespace Pivot

theorem ofJson?_toJson {pivot : Pivot F} (hindices : ∀ n ∈ pivot.indices, n < 2 ^ 64)
    (hfinite : isFinite pivot.element = true) (hreads : JsonNumeral.ReadsBack pivot.element) :
    ofJson? pivot.toJson = some pivot := by
  have hfields : pivot.toJson.fields? .opened ["row", "column", "element", "leaving"] =
      some [some (.ofNat pivot.row), some (.ofNat pivot.column), some (.ofNumeral pivot.element),
        some (.ofNat pivot.leaving)] :=
    fields?_record .opened rfl (by decide)
  simp only [indices, List.forall_mem_cons] at hindices
  obtain ⟨hrow, hcolumn, hleaving, -⟩ := hindices
  simp [ofJson?, hfields, required?, nat?_ofNat hrow, nat?_ofNat hcolumn, nat?_ofNat hleaving,
    numeral?_ofNumeral hfinite hreads]

theorem isPrinted_toJson (pivot : Pivot F) : pivot.toJson.IsPrinted := by
  refine isPrinted_record ?_
  simp only [List.forall_mem_cons]
  exact ⟨isPrinted_ofNat _, isPrinted_ofNat _, isPrinted_ofNumeral _, isPrinted_ofNat _,
    List.forall_mem_nil _⟩

end Pivot

namespace Record

theorem ofJson?_toJson {record : Record F} (hindices : ∀ n ∈ record.indices, n < 2 ^ 64)
    (hfinite : ∀ value ∈ record.numbers, isFinite value = true)
    (hreads : ∀ value ∈ record.numbers, JsonNumeral.ReadsBack value) :
    ofJson? record.toJson = some record := by
  have hfields : record.toJson.fields? .opened
      ["iteration", "tableau", "basis", "pivot", "is_optimal"] =
        some [some (.ofNat record.iteration), some (.ofList (.ofList .ofNumeral) record.rows),
          some (.ofList .ofNat record.basis), some (.ofOption Pivot.toJson record.pivot),
          some (.bool record.isOptimal)] :=
    fields?_record .opened rfl (by decide)
  simp only [indices, List.forall_mem_cons, List.forall_mem_append] at hindices
  simp only [numbers, List.forall_mem_append] at hfinite hreads
  obtain ⟨hiteration, hbasis, hpivots⟩ := hindices
  have hrows : list? (list? numeral?) (ofList (ofList ofNumeral) record.rows) =
      some record.rows := by
    refine list?_ofList fun row hrow => list?_ofList fun value hvalue => ?_
    have hmem : value ∈ record.rows.flatten := List.mem_flatten_of_mem hrow hvalue
    exact numeral?_ofNumeral (hfinite.1 value hmem) (hreads.1 value hmem)
  have hbasis : list? nat? (ofList ofNat record.basis) = some record.basis :=
    list?_ofList fun index hindex => nat?_ofNat (hbasis index hindex)
  have hpivot : option? Pivot.ofJson? (ofOption Pivot.toJson record.pivot) =
      some record.pivot := by
    refine option?_ofOption (fun _ _ => nofun) fun pivot hpivot => ?_
    have hmem : pivot ∈ record.pivot.toList := Option.mem_toList.mpr hpivot
    have helement : pivot.element ∈ record.pivot.toList.map Pivot.element :=
      List.mem_map_of_mem hmem
    exact Pivot.ofJson?_toJson
      (fun index hindex => hpivots index (List.mem_flatMap_of_mem hmem hindex))
      (hfinite.2 _ helement) (hreads.2 _ helement)
  simp [ofJson?, hfields, required?, optional?, nat?_ofNat hiteration, hrows, hbasis, hpivot,
    bool?]

theorem isPrinted_toJson (record : Record F) : record.toJson.IsPrinted := by
  refine isPrinted_record ?_
  simp only [List.forall_mem_cons]
  exact ⟨isPrinted_ofNat _,
    isPrinted_ofList fun _ _ => isPrinted_ofList fun _ _ => isPrinted_ofNumeral _,
    isPrinted_ofList fun _ _ => isPrinted_ofNat _,
    isPrinted_ofOption fun pivot _ => pivot.isPrinted_toJson,
    isPrinted_bool _, List.forall_mem_nil _⟩

end Record

namespace Trace

theorem ofJson?_toJson {trace : Trace F} (hindices : ∀ n ∈ trace.indices, n < 2 ^ 64)
    (hfinite : ∀ value ∈ trace.numbers, isFinite value = true)
    (hreads : ∀ value ∈ trace.numbers, JsonNumeral.ReadsBack value) :
    ofJson? trace.toJson = some trace := by
  have hfields : trace.toJson.fields? .opened ["names", "records"] =
      some [some trace.names.toJson, some (.ofList Record.toJson trace.records)] :=
    fields?_record .opened rfl (by decide)
  simp only [indices, List.forall_mem_cons] at hindices
  have hrecords : list? Record.ofJson? (ofList Record.toJson trace.records) =
      some trace.records := by
    refine list?_ofList fun record hrecord => Record.ofJson?_toJson ?_ ?_ ?_
    · exact fun index hindex => hindices.2 index (List.mem_flatMap_of_mem hrecord hindex)
    · exact fun value hvalue => hfinite value (List.mem_flatMap_of_mem hrecord hvalue)
    · exact fun value hvalue => hreads value (List.mem_flatMap_of_mem hrecord hvalue)
  simp [ofJson?, hfields, required?, Names.ofJson?_toJson hindices.1, hrecords]

theorem isPrinted_toJson (trace : Trace F) : trace.toJson.IsPrinted := by
  refine isPrinted_record ?_
  simp only [jsonFields, List.forall_mem_cons]
  exact ⟨trace.names.isPrinted_toJson,
    isPrinted_ofList fun record _ => record.isPrinted_toJson, List.forall_mem_nil _⟩

end Trace

end Traces

/-! ## Settings -/

namespace Settings

theorem ofJson?_toJson {settings : Settings} (hlimit : settings.maxIterations < 2 ^ 64)
    (hfinite : isFinite settings.epsilon = true)
    (hreads : JsonNumeral.ReadsBack settings.epsilon) :
    ofJson? settings.toJson = some settings := by
  have hfields : settings.toJson.fields? .closed ["max_iterations", "epsilon", "pivot_rule"] =
      some [some (.ofNat settings.maxIterations), some (.ofNumeral settings.epsilon),
        some (.ofString settings.pivotRule.name)] :=
    fields?_record .closed rfl (by decide)
  have hname : choice? (ofString settings.pivotRule.name) = some settings.pivotRule.name := rfl
  simp [ofJson?, hfields, defaulted?, nat?_ofNat hlimit, numeral?_ofNumeral hfinite hreads, hname,
    PivotRule.ofName?_name]

theorem isPrinted_toJson (settings : Settings) : settings.toJson.IsPrinted := by
  refine isPrinted_record ?_
  simp only [List.forall_mem_cons]
  exact ⟨isPrinted_ofNat _, isPrinted_ofNumeral _, isPrinted_ofString _, List.forall_mem_nil _⟩

end Settings

/-! ## Round trips -/

/-- **What is stored as JSON is read back.** The text of a trace gives the same trace again,
whatever its shapes and names, if its indices are machine words and its numbers finite ones that
reading makes again of what is written for them; and so does the text of settings. This holds of
the texts without white space and of the indented ones. -/
theorem stored_json_reads_back {F : Type} [JsonNumeral F] [Finiteness F] [LawfulJsonNumeral F] :
    (∀ trace : Trace F, (∀ n ∈ trace.indices, n < 2 ^ 64) →
      (∀ value ∈ trace.numbers, isFinite value = true) →
      (∀ value ∈ trace.numbers, JsonNumeral.ReadsBack value) →
        Trace.ofJsonText? trace.toJson.compact = some trace ∧
          Trace.ofJsonText? trace.toJson.pretty = some trace) ∧
    ∀ settings : Settings, settings.maxIterations < 2 ^ 64 →
      isFinite settings.epsilon = true → JsonNumeral.ReadsBack settings.epsilon →
        Settings.ofJsonText? settings.toJson.compact = some settings ∧
          Settings.ofJsonText? settings.toJson.pretty = some settings := by
  constructor
  · intro trace hindices hfinite hreads
    have hprinted := trace.isPrinted_toJson
    have hdecoded := Trace.ofJson?_toJson hindices hfinite hreads
    constructor
    · rw [Trace.ofJsonText?, hprinted.read?_compact]
      exact hdecoded
    · rw [Trace.ofJsonText?, hprinted.read?_pretty]
      exact hdecoded
  · intro settings hlimit hfinite hreads
    have hprinted := settings.isPrinted_toJson
    have hdecoded := Settings.ofJson?_toJson hlimit hfinite hreads
    constructor
    · rw [Settings.ofJsonText?, hprinted.read?_compact]
      exact hdecoded
    · rw [Settings.ofJsonText?, hprinted.read?_pretty]
      exact hdecoded

/-- A trace with ragged rows, names that need escapes, and the extreme values of its fields. -/
def raggedTrace : Trace Float where
  names := ⟨2 ^ 64 - 1, ["x1", "a\"b\\c/\n\u0001", "größe 😀", ""]⟩
  records := [
    ⟨0, [[0.1, -0.0, 1.5e300], []], [], none, false⟩,
    ⟨1, [[-2.5e-7]], [3, 0], some ⟨0, 1, -4, 2 ^ 64 - 1⟩, true⟩]

/-- Settings other than the standard ones. -/
def finestSettings : Settings := ⟨2 ^ 64 - 1, 5e-324, .bland⟩

/-- Names that need escapes, ragged rows, a negative zero, the least positive tolerance and the
largest word survive. -/
theorem stored_json_reads_back_ragged :
    ((∀ n ∈ raggedTrace.indices, n < 2 ^ 64) ∧
      (∀ value ∈ raggedTrace.numbers, isFinite value = true) ∧
      (∀ value ∈ raggedTrace.numbers, JsonNumeral.ReadsBack value) ∧
      Trace.ofJsonText? raggedTrace.toJson.compact = some raggedTrace ∧
      Trace.ofJsonText? raggedTrace.toJson.pretty = some raggedTrace) ∧
    (finestSettings.maxIterations < 2 ^ 64 ∧ isFinite finestSettings.epsilon = true ∧
      JsonNumeral.ReadsBack finestSettings.epsilon ∧
      Settings.ofJsonText? finestSettings.toJson.compact = some finestSettings ∧
      Settings.ofJsonText? finestSettings.toJson.pretty = some finestSettings) := by
  have hindices : ∀ n ∈ raggedTrace.indices, n < 2 ^ 64 := by decide +kernel
  have hfinite : ∀ value ∈ raggedTrace.numbers, isFinite value = true := by decide +kernel
  have hreads : ∀ value ∈ raggedTrace.numbers, JsonNumeral.ReadsBack value := by decide +kernel
  have hlimit : finestSettings.maxIterations < 2 ^ 64 := by decide
  have hepsilon : isFinite finestSettings.epsilon = true := by decide +kernel
  have hback : JsonNumeral.ReadsBack finestSettings.epsilon := by decide +kernel
  obtain ⟨htrace, hsettings⟩ := @stored_json_reads_back Float _ _ _
  exact ⟨⟨hindices, hfinite, hreads, htrace raggedTrace hindices hfinite hreads⟩,
    ⟨hlimit, hepsilon, hback, hsettings finestSettings hlimit hepsilon hback⟩⟩

end PrimalSimplex
