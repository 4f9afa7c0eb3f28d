import BraceTemplate.Json.Exchange
import BraceTemplate.Proofs.Notes

/-! Exchange of values as JSON. What is written is read back as the same value, although parts that say nothing are
left out, and reading fields takes every spelling of their flags to one, which is the one that is written. -/
namespace BraceTemplate

namespace Json

variable {α : Type} {key : String} {write : α → Json} {read : Json → Option α} {part : Option α}

/-- The keys of an object in order. Other values have none. -/
def keys : Json → List String
  | object members => members.map Prod.fst
  | _ => []

private theorem filter_optionalMember (key other : String) (write : α → Json) (part : Option α) :
    (optionalMember other write part).filter (·.1 == key) =
      if other = key then optionalMember other write part else [] := by
  cases part <;> simp [optionalMember, List.filter_cons]

private theorem map_fst_optionalMember (key : String) (write : α → Json) (part : Option α) :
    (optionalMember key write part).map Prod.fst = if part.isSome then [key] else [] := by
  cases part <;> rfl

/-- A part that is written is found under its key, and one that is left out is not. -/
private theorem member?_eq_of_filter {members : List (String × Json)}
    (h : members.filter (·.1 == key) = optionalMember key write part) :
    member? members key = some (part.map write) := by
  rw [member?, h]
  cases part <;> rfl

private theorem member?_insert_ne {key other : String} (h : other ≠ key) (value : Json)
    (before after : List (String × Json)) :
    member? (before ++ (other, value) :: after) key = member? (before ++ after) key := by
  have skipped : (before ++ (other, value) :: after).filter (·.1 == key) = (before ++ after).filter (·.1 == key) := by
    simp [List.filter_append, h]
  rw [member?, skipped, member?]

/-- A key that is there a second time is not read. -/
private theorem member?_insert_self (key : String) (value : Json) (before after : List (String × Json)) :
    member? (before ++ (key, value) :: after) key =
      if (before ++ after).filter (·.1 == key) = [] then some (some value) else none := by
  have kept : ((key, value) :: after).filter (·.1 == key) = (key, value) :: after.filter (·.1 == key) :=
    List.filter_cons_of_pos (beq_self_eq_true key)
  rw [member?, List.filter_append, List.filter_append, kept]
  generalize before.filter (·.1 == key) = front
  generalize after.filter (·.1 == key) = back
  cases front with
  | nil => cases back <;> rfl
  | cons first rest => cases rest <;> rfl

/-- A part is read back if it is not written as null, which would say that it is absent. -/
private theorem asOptional?_map (h : ∀ a ∈ part, read (write a) = some a) (present : ∀ a, write a ≠ .null) :
    asOptional? read (part.map write) = some part := by
  cases part with
  | none => rfl
  | some a =>
    rw [Option.map_some, asOptional?, h a rfl]
    · rfl
    · exact present a

private theorem asWidth?_natural (n : UInt32) : (natural n.toNat).asWidth? = some n := by
  rw [asWidth?, asNatBelow?, if_pos n.toNat_lt, Option.map_some, UInt32.ofNat_toNat]

end Json

open Json

theorem Flag.ofChar?_char (flag : Flag) : ofChar? flag.char = some flag := by
  cases flag <;> rfl

namespace FlagSet

/-- The flags of a text are those whose characters occur in it. -/
theorem contains_ofText {text : String} {flag : Flag} : (ofText text).contains flag ↔ flag.char ∈ text.toList := by
  rw [ofText, contains_ofList, decide_eq_true_iff, List.mem_filterMap]
  constructor
  · rintro ⟨c, member, read⟩
    rwa [← Flag.eq_char_of_ofChar? read]
  · intro member
    exact ⟨flag.char, member, flag.ofChar?_char⟩

/-- The flag characters that occur in a text, each once and in canonical order. -/
def canonical (text : String) : String := String.ofList ("-+ #0".toList.filter (· ∈ text.toList))

theorem text_ofText (text : String) : (ofText text).text = canonical text := by
  have member : (ofText text).contains = fun flag => decide (flag.char ∈ text.toList) := by
    funext flag
    rw [Bool.eq_iff_iff, contains_ofText, decide_eq_true_iff]
  rw [FlagSet.text, toList, canonical, ← Flag.map_char_all, List.filter_map, member]
  rfl

theorem ofText_text (set : FlagSet) : ofText set.text = set := by
  apply ext_contains
  intro flag
  rw [Bool.eq_iff_iff, contains_ofText, FlagSet.text, String.toList_ofList,
    List.mem_map_of_injective fun _ _ => Flag.char_injective, mem_toList]

theorem text_eq_empty_iff {set : FlagSet} : set.text = "" ↔ set = .empty := by
  constructor
  · intro none
    rw [← set.ofText_text, none]
    rfl
  · rintro rfl
    rfl

private theorem ofText_congr {a b : String} (same : ∀ flag : Flag, flag.char ∈ a.toList ↔ flag.char ∈ b.toList) :
    ofText a = ofText b := by
  apply ext_contains
  intro flag
  rw [Bool.eq_iff_iff, contains_ofText, contains_ofText, same flag]

theorem ofJson?_toJson (set : FlagSet) : ofJson? set.toJson = some set := congrArg some set.ofText_text

end FlagSet

theorem LengthModifier.ofJson?_toJson (modifier : LengthModifier) : ofJson? modifier.toJson = some modifier := by
  cases modifier <;> rfl

theorem Severity.ofJson?_toJson (severity : Severity) : ofJson? severity.toJson = some severity := by
  cases severity <;> rfl

namespace Field

/-- Under each key stands the part that it names, if it says something. -/
private theorem exists_members (field : Field) : ∃ members, field.toJson = .object members ∧
    member? members "flags" = some ((if field.flags = .empty then none else some field.flags).map FlagSet.toJson) ∧
    member? members "width" = some (field.width.map fun n => .natural n.toNat) ∧
    member? members "precision" = some (field.precision.map fun n => .natural n.toNat) ∧
    member? members "length" = some (field.length.map LengthModifier.toJson) := by
  refine ⟨_, rfl, ?_, ?_, ?_, ?_⟩ <;> exact member?_eq_of_filter (by simp [filter_optionalMember])

theorem ofJson?_toJson (field : Field) : ofJson? field.toJson = some field := by
  obtain ⟨members, object, flags, width, precision, length⟩ := field.exists_members
  have readWidth (part : Option UInt32) :
      asOptional? asWidth? (part.map fun n => .natural n.toNat) = some part :=
    asOptional?_map (fun n _ => asWidth?_natural n) nofun
  have readLength : asOptional? LengthModifier.ofJson? (field.length.map LengthModifier.toJson) = some field.length :=
    asOptional?_map (fun modifier _ => modifier.ofJson?_toJson) nofun
  rw [object, ofJson?, flags, width, precision, length]
  by_cases empty : field.flags = .empty
  · simp only [ofParts?, bind, Option.bind, readWidth, readLength, if_pos empty, Option.map_none]
    rw [← empty]
  · simp only [ofParts?, bind, Option.bind, readWidth, readLength, if_neg empty, Option.map_some,
      FlagSet.ofJson?_toJson]

theorem keys_toJson (field : Field) :
    field.toJson.keys = (if field.flags = .empty then [] else ["flags"])
      ++ (if field.width.isSome then ["width"] else []) ++ (if field.precision.isSome then ["precision"] else [])
      ++ if field.length.isSome then ["length"] else [] := by
  simp only [toJson, keys, List.map_append, map_fst_optionalMember]
  by_cases empty : field.flags = .empty
  · simp only [if_pos empty, Option.isSome_none]
    rfl
  · simp only [if_neg empty, Option.isSome_some]
    rfl

end Field

/-- The offsets that a machine word holds. -/
def Span.Addressable (span : Span) : Prop := span.start < UInt64.size ∧ span.stop < UInt64.size

theorem Span.ofJson?_toJson {span : Span} (h : span.Addressable) : ofJson? span.toJson = some span := by
  have read {n : Nat} (small : n < UInt64.size) : (natural n).asOffset? = some n := if_pos small
  simp [toJson, ofJson?, member?, read h.1, read h.2]

namespace Context

/-- An entry whose key is larger than all others comes last. -/
private theorem place_eq_append {key value : String} {entries : List (String × String)}
    (h : ∀ entry ∈ entries, entry.1 < key) :
    place key value entries = entries ++ [(key, value)] := by
  induction entries with
  | nil => rfl
  | cons entry entries ih =>
    obtain ⟨smaller, rest⟩ := List.forall_mem_cons.mp h
    rw [place, if_neg (String.lt_asymm smaller), if_pos smaller, ih rest, List.cons_append]

/-- Entries in the order of their keys are taken over as they are. -/
private theorem entries_foldl_insert (context : Context) {entries : List (String × String)}
    (increasing : (context.entries ++ entries).Pairwise (·.1 < ·.1)) :
    (entries.foldl (fun context (key, value) => context.insert key value) context).entries =
      context.entries ++ entries := by
  induction entries generalizing context with
  | nil => exact (List.append_nil _).symm
  | cons entry entries ih =>
    have last : (context.insert entry.1 entry.2).entries = context.entries ++ [entry] :=
      place_eq_append fun other member =>
        (List.pairwise_append.mp increasing).2.2 other member entry List.mem_cons_self
    rw [List.foldl_cons, ih _ (by rwa [last, List.append_assoc]), last, List.append_assoc, List.singleton_append]

theorem ofList_entries (context : Context) : ofList context.entries = context := by
  have same := entries_foldl_insert empty (show (empty.entries ++ context.entries).Pairwise _ from context.increasing)
  exact Context.mk.injEq .. ▸ same

theorem ofJson?_toJson (context : Context) : ofJson? context.toJson = some context := by
  have texts : (context.entries.map fun entry => (entry.1, Json.string entry.2)).mapM
      (fun member => member.2.asString?.map (member.1, ·)) = some context.entries := by
    rw [List.mapM_map]
    exact List.mapM_pure.trans (congrArg some (List.map_id _))
  have read : ofJson? context.toJson = some (ofList context.entries) :=
    congrArg (Option.bind · fun entries => some (ofList entries)) texts
  rw [read, ofList_entries]

end Context

namespace Diagnostic

/-- Under each key stands the part that it names, if it says something. -/
private theorem exists_members (diagnostic : Diagnostic) : ∃ members, diagnostic.toJson = .object members ∧
    member? members "id" = some (some (.string diagnostic.id)) ∧
    member? members "severity" = some (some diagnostic.severity.toJson) ∧
    member? members "message" = some (some (.string diagnostic.message)) ∧
    member? members "span" = some (diagnostic.span.map Span.toJson) ∧
    member? members "context" = some (diagnostic.context.map Context.toJson) := by
  refine ⟨_, rfl, ?_, ?_, ?_, ?_, ?_⟩
  · simp [member?, filter_optionalMember]
  · simp [member?, filter_optionalMember]
  · simp [member?, filter_optionalMember]
  · exact member?_eq_of_filter (by simp [filter_optionalMember])
  · exact member?_eq_of_filter (by simp [filter_optionalMember])

theorem ofJson?_toJson {diagnostic : Diagnostic} (h : ∀ span ∈ diagnostic.span, span.Addressable) :
    ofJson? diagnostic.toJson = some diagnostic := by
  obtain ⟨members, object, id, severity, message, span, context⟩ := diagnostic.exists_members
  have readSpan : asOptional? Span.ofJson? (diagnostic.span.map Span.toJson) = some diagnostic.span :=
    asOptional?_map (fun span member => Span.ofJson?_toJson (h span member)) nofun
  have readContext : asOptional? Context.ofJson? (diagnostic.context.map Context.toJson) = some diagnostic.context :=
    asOptional?_map (fun context _ => context.ofJson?_toJson) nofun
  rw [object, ofJson?, id, severity, message, span, context]
  simp only [ofParts?, bind, Option.bind, asString?, Severity.ofJson?_toJson, readSpan, readContext]

theorem keys_toJson (diagnostic : Diagnostic) :
    diagnostic.toJson.keys = ["id", "severity", "message"] ++ (if diagnostic.span.isSome then ["span"] else [])
      ++ if diagnostic.context.isSome then ["context"] else [] := by
  simp only [toJson, keys, List.map_append, map_fst_optionalMember]
  rfl

end Diagnostic

/-- A place for the text of flags in a value, among the members of an object or in front of a list. -/
inductive FlagSlot where
  | member (before after : List (String × Json))
  | item (rest : List Json)

/-- The value with a text in the place. -/
def FlagSlot.fill : FlagSlot → String → Json
  | member before after, text => .object (before ++ ("flags", .string text) :: after)
  | item rest, text => .array (.string text :: rest)

/-- The text of the flags has no say in anything but the flags, and of it only the set is read. -/
private theorem Field.ofParts?_string (text : String) (width precision length : Option Json) :
    ofParts? (some (.string text)) width precision length =
      (ofParts? (some (.string "")) width precision length).map ({ · with flags := .ofText text }) := by
  unfold ofParts?
  cases asOptional? asWidth? width with
  | none => rfl
  | some width =>
    cases asOptional? asWidth? precision with
    | none => rfl
    | some precision => cases asOptional? LengthModifier.ofJson? length <;> rfl

private theorem Field.ofJson?_fill (slot : FlagSlot) (text : String) :
    ofJson? (slot.fill text) = (ofJson? (slot.fill "")).map ({ · with flags := .ofText text }) := by
  cases slot with
  | member before after =>
    have skipped {key text : String} (h : "flags" ≠ key) := member?_insert_ne h (.string text) before after
    simp only [FlagSlot.fill, ofJson?, member?_insert_self, skipped (show "flags" ≠ "width" by decide),
      skipped (show "flags" ≠ "precision" by decide), skipped (show "flags" ≠ "length" by decide)]
    split
    · simp only [bind, Option.bind_some, Option.map_bind, Function.comp_def, ofParts?_string text]
    · rfl
  | item rest =>
    simp only [FlagSlot.fill, ofJson?, List.length_cons]
    split
    · exact ofParts?_string text _ _ _
    · rfl

/-- The flags of a field that was read from a text are written in canonical order, or left out if there are none. -/
theorem Field.exists_canonical_flags {slot : FlagSlot} {text : String} {field : Field}
    (h : ofJson? (slot.fill text) = some field) : ∃ members, field.toJson = .object members ∧
      member? members "flags" =
        some (if FlagSet.canonical text = "" then none else some (.string (FlagSet.canonical text))) := by
  obtain ⟨members, object, flags, -⟩ := field.exists_members
  refine ⟨members, object, ?_⟩
  rw [ofJson?_fill] at h
  obtain ⟨read, -, rfl⟩ := Option.map_eq_some_iff.mp h
  rw [flags, ← FlagSet.text_ofText]
  by_cases empty : FlagSet.ofText text = .empty
  · rw [if_pos empty, if_pos (FlagSet.text_eq_empty_iff.mpr empty), Option.map_none]
  · rw [if_neg empty, if_neg (mt FlagSet.text_eq_empty_iff.mp empty), Option.map_some, FlagSet.toJson]

/-- Fields, ranges and diagnostics are read back as they were written, and exactly the parts that say something are
written. Reading any other form of a field and writing it again changes nothing more, and of a text of flags neither
the order nor repetitions nor characters that are no flags matter. -/
theorem exchange_round_trips :
    (∀ field : Field, Field.ofJson? field.toJson = some field ∧
      field.toJson.keys = (if field.flags = .empty then [] else ["flags"])
        ++ (if field.width.isSome then ["width"] else []) ++ (if field.precision.isSome then ["precision"] else [])
        ++ if field.length.isSome then ["length"] else []) ∧
    (∀ span : Span, span.Addressable → Span.ofJson? span.toJson = some span) ∧
    (∀ diagnostic : Diagnostic, (∀ span ∈ diagnostic.span, span.Addressable) →
      Diagnostic.ofJson? diagnostic.toJson = some diagnostic ∧
      diagnostic.toJson.keys = ["id", "severity", "message"] ++ (if diagnostic.span.isSome then ["span"] else [])
        ++ if diagnostic.context.isSome then ["context"] else []) ∧
    (∀ value, ((Field.ofJson? value).map Field.toJson).bind Field.ofJson? = Field.ofJson? value) ∧
    ∀ slot a b, (∀ flag : Flag, flag.char ∈ a.toList ↔ flag.char ∈ b.toList) →
      Field.ofJson? (FlagSlot.fill slot a) = Field.ofJson? (slot.fill b) ∧
      ∀ field, Field.ofJson? (slot.fill a) = some field → ∃ members, field.toJson = .object members ∧
        member? members "flags" =
          some (if FlagSet.canonical a = "" then none else some (.string (FlagSet.canonical a))) := by
  refine ⟨fun field => ⟨field.ofJson?_toJson, field.keys_toJson⟩, fun span => Span.ofJson?_toJson,
    fun diagnostic small => ⟨Diagnostic.ofJson?_toJson small, diagnostic.keys_toJson⟩, fun value => ?_,
    fun slot a b same => ⟨?_, fun field => Field.exists_canonical_flags⟩⟩
  · cases Field.ofJson? value with
    | none => rfl
    | some field => exact field.ofJson?_toJson
  · rw [Field.ofJson?_fill slot a, Field.ofJson?_fill slot b, FlagSet.ofText_congr same]

/-- A present but empty context is kept apart from an absent one, and flags are read out of the order in which they
are written. -/
theorem exchange_round_trips_of_disordered_flags :
    Span.ofJson? (Span.toJson ⟨9, 3⟩) = some ⟨9, 3⟩ ∧
    (Diagnostic.ofJson? (Diagnostic.toJson ⟨"FMT1002", .error, "bad", some ⟨3, 4⟩, some .empty⟩) =
      some ⟨"FMT1002", .error, "bad", some ⟨3, 4⟩, some .empty⟩ ∧
      (Diagnostic.toJson ⟨"FMT1002", .error, "bad", some ⟨3, 4⟩, some .empty⟩).keys =
        ["id", "severity", "message", "span", "context"]) ∧
    Field.ofJson? (.object [("color", .null), ("flags", .string "0-?0"), ("width", .null)]) =
      Field.ofJson? (.object [("color", .null), ("flags", .string "-0"), ("width", .null)]) := by
  obtain ⟨-, span, diagnostic, -, flags⟩ := exchange_round_trips
  refine ⟨span _ ⟨by decide, by decide⟩, diagnostic _ ?_,
    (flags (.member [("color", .null)] [("width", .null)]) _ _ ?_).1⟩
  · rintro _ ⟨rfl⟩
    exact ⟨by decide, by decide⟩
  · intro flag
    cases flag <;> decide

end BraceTemplate
