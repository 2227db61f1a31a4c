import Mathlib.Data.List.Nodup
import Mathlib.Data.List.Pairwise
import Mathlib.Data.List.Perm.Basic
import SoupQuery.Proofs.Transport

/-!
# The order of metadata does not matter

A schema lists its types, and each type lists its fields and its child relationships. Names are
looked up in these lists, and the first match counts. Where no name matches twice, the lists may be
in any order, and the keys of fields and child relationships may be any.

* `ObjectInfo.Unambiguous` — no name means two fields, or two child relationships.
* `ObjectInfo.Rearranged`, `Schema.Rearranged` — the same metadata in another order and under other
  keys.
* `Schema.Rearranged.sameAnswers` — rearranged metadata give the same meaning to every name.
* `transform_eq_of_sameAnswers` — schemas of the same answers compile every document alike.
* `transform_rearranged` — **the order of metadata does not matter.**
-/

namespace SoupQuery

/-! ## Look-ups -/

/-- A match that is the only one is found in any order. -/
theorem find?_eq_of_perm {α : Type} {p : α → Bool} {l l' : List α} (h : l.Perm l')
    (hunique : l.Pairwise fun a b => ¬ (p a = true ∧ p b = true)) : l'.find? p = l.find? p := by
  cases hfound : l.find? p with
  | none =>
    rw [List.find?_eq_none] at hfound ⊢
    exact fun a ha => hfound a (h.mem_iff.2 ha)
  | some a =>
    have ha : a ∈ l := List.mem_of_find?_eq_some hfound
    have hp : p a = true := List.find?_some hfound
    cases hfound' : l'.find? p with
    | none => exact absurd hp (List.find?_eq_none.1 hfound' a (h.mem_iff.1 ha))
    | some b =>
      have hb : b ∈ l := h.mem_iff.2 (List.mem_of_find?_eq_some hfound')
      have hp' : p b = true := List.find?_some hfound'
      have : Std.Symm fun a b => ¬ (p a = true ∧ p b = true) :=
        ⟨fun _ _ hnot hboth => hnot hboth.symm⟩
      by_contra hne
      exact hunique.forall ha hb (fun heq => hne (congrArg some heq.symm)) ⟨hp, hp'⟩

/-- Where every key stands once, a look-up finds every entry. -/
theorem lookup_eq_some_iff_mem {α : Type} {key : String} {value : α} :
    ∀ {l : List (String × α)}, (l.map (·.1)).Nodup → (l.lookup key = some value ↔ (key, value) ∈ l)
  | [], _ => by simp
  | (key', value') :: l, h => by
    obtain ⟨hkey, hrest⟩ := List.nodup_cons.1 h
    by_cases heq : key = key'
    · subst heq
      have hnot : (key, value) ∉ l := fun hmem => hkey (List.mem_map.2 ⟨_, hmem, rfl⟩)
      simp [hnot, eq_comm]
    · have hbeq : (key == key') = false := by simpa using heq
      rw [List.lookup_cons, hbeq]
      simp [lookup_eq_some_iff_mem hrest, heq]

/-! ## Metadata in another order -/

/-- No name means two fields of the type, and no name means two of its child relationships. -/
structure ObjectInfo.Unambiguous (info : ObjectInfo) : Prop where
  fields : info.fields.Pairwise fun first second =>
    ∀ name, ¬ (first.2.answersTo name = true ∧ second.2.answersTo name = true)
  children : info.children.Pairwise fun first second =>
    first.2.relationshipName ≠ second.2.relationshipName

/-- The second has the fields and the child relationships of the first, in any order and under any
keys. -/
structure ObjectInfo.Rearranged (info info' : ObjectInfo) : Prop where
  apiName : info'.apiName = info.apiName
  fields : (info.fields.map (·.2)).Perm (info'.fields.map (·.2))
  children : (info.children.map (·.2)).Perm (info'.children.map (·.2))

/-- The second schema has the types of the first in any order, with the metadata of each
rearranged. -/
def Schema.Rearranged (schema schema' : Schema) : Prop :=
  ∃ types, List.Forall₂ (fun entry entry' => entry'.1 = entry.1 ∧ entry.2.Rearranged entry'.2)
    schema types ∧ types.Perm schema'

variable {schema schema' : Schema} {info info' : ObjectInfo}

theorem ObjectInfo.Rearranged.field_eq (h : info.Rearranged info') (hinfo : info.Unambiguous)
    (name : String) : (info'.fields.map (·.2)).find? (·.answersTo name) =
      (info.fields.map (·.2)).find? (·.answersTo name) := by
  refine find?_eq_of_perm h.fields (List.pairwise_map.2 (hinfo.fields.imp fun hne => ?_))
  exact hne name

theorem ObjectInfo.Rearranged.child_eq (h : info.Rearranged info') (hinfo : info.Unambiguous)
    (name : String) : (info'.children.map (·.2)).find? (·.relationshipName = name) =
      (info.children.map (·.2)).find? (·.relationshipName = name) := by
  refine find?_eq_of_perm h.children (List.pairwise_map.2 (hinfo.children.imp fun hne => ?_))
  rintro ⟨hfirst, hsecond⟩
  rw [decide_eq_true_eq] at hfirst hsecond
  exact hne (hfirst.trans hsecond.symm)

/-- The schemas have the same types, each once. -/
theorem Schema.Rearranged.nodup (h : schema.Rearranged schema')
    (hkeys : (schema.map (·.1)).Nodup) : (schema'.map (·.1)).Nodup := by
  obtain ⟨types, hpairs, hperm⟩ := h
  have hsame : types.map (·.1) = schema.map (·.1) := by
    clear hperm hkeys
    induction hpairs with
    | nil => rfl
    | cons hentry _ ih => rw [List.map_cons, List.map_cons, hentry.1, ih]
  rw [← (hperm.map (·.1)).nodup_iff, hsame]
  exact hkeys

/-- Each entry of the first schema has its entry in the second. -/
theorem Schema.Rearranged.exists_right (h : schema.Rearranged schema') {type : String}
    (hinfo : (type, info) ∈ schema) : ∃ info', (type, info') ∈ schema' ∧ info.Rearranged info' := by
  obtain ⟨types, hpairs, hperm⟩ := h
  obtain ⟨⟨type', info'⟩, hmem, hkey, hrearranged⟩ :=
    Compile.exists_of_forall₂_right hpairs.flip _ hinfo
  subst hkey
  exact ⟨info', hperm.mem_iff.1 hmem, hrearranged⟩

/-- Each entry of the second schema has its entry in the first. -/
theorem Schema.Rearranged.exists_left (h : schema.Rearranged schema') {type : String}
    (hinfo' : (type, info') ∈ schema') : ∃ info, (type, info) ∈ schema := by
  obtain ⟨types, hpairs, hperm⟩ := h
  obtain ⟨⟨type', info⟩, hmem, hkey, -⟩ :=
    Compile.exists_of_forall₂_right hpairs _ (hperm.mem_iff.2 hinfo')
  obtain rfl : type = type' := hkey
  exact ⟨info, hmem⟩

/-- Each type is known to both schemas, with rearranged metadata, or to neither. -/
theorem Schema.Rearranged.object?_cases (h : schema.Rearranged schema')
    (hkeys : (schema.map (·.1)).Nodup) (type : String) :
    (schema.object? type = none ∧ schema'.object? type = none) ∨
    ∃ info info', (type, info) ∈ schema ∧ schema.object? type = some info ∧
      schema'.object? type = some info' ∧ info.Rearranged info' := by
  -- A look-up is membership in either schema, as neither has a type twice.
  cases hinfo : schema.object? type with
  | some info =>
    have hmem : (type, info) ∈ schema := (lookup_eq_some_iff_mem hkeys).1 hinfo
    obtain ⟨info', hmem', hrearranged⟩ := h.exists_right hmem
    exact .inr ⟨info, info', hmem, rfl, (lookup_eq_some_iff_mem (h.nodup hkeys)).2 hmem',
      hrearranged⟩
  | none =>
    refine .inl ⟨rfl, Option.eq_none_iff_forall_ne_some.2 fun info' hinfo' => ?_⟩
    obtain ⟨info, hmem⟩ := h.exists_left ((lookup_eq_some_iff_mem (h.nodup hkeys)).1 hinfo')
    rw [Schema.object?, (lookup_eq_some_iff_mem hkeys).2 hmem] at hinfo
    cases hinfo

/-- **Rearranged metadata give the same meaning to every name.** -/
theorem Schema.Rearranged.sameAnswers (h : schema.Rearranged schema')
    (hkeys : (schema.map (·.1)).Nodup) (hinfos : ∀ entry ∈ schema, entry.2.Unambiguous) :
    schema.SameAnswers schema' := by
  refine ⟨fun type => ?_, fun type name => ?_, fun type name => ?_⟩
  · rw [Schema.knows, Schema.knows]
    obtain ⟨hnone, hnone'⟩ | ⟨info, info', -, hinfo, hinfo', -⟩ := h.object?_cases hkeys type
    · rw [hnone, hnone']
    · rw [hinfo, hinfo']
      rfl
  · rw [Schema.field?, Schema.field?]
    obtain ⟨hnone, hnone'⟩ | ⟨info, info', hmem, hinfo, hinfo', hrearranged⟩ :=
      h.object?_cases hkeys type
    · rw [hnone, hnone']
    · rw [hinfo, hinfo', Option.bind_some, Option.bind_some,
        hrearranged.field_eq (hinfos _ hmem)]
  · rw [Schema.child?, Schema.child?]
    obtain ⟨hnone, hnone'⟩ | ⟨info, info', hmem, hinfo, hinfo', hrearranged⟩ :=
      h.object?_cases hkeys type
    · rw [hnone, hnone']
    · rw [hinfo, hinfo', Option.bind_some, Option.bind_some,
        hrearranged.child_eq (hinfos _ hmem)]

end SoupQuery

namespace SoupQuery.Compile

open SoupQuery.GraphQL

variable {schema schema' : Schema} {userId : String}

/-! ## Documents -/

theorem recordQuery_eq_of_sameAnswers (h : schema.SameAnswers schema') (row : Row)
    (anchors : List Predicate) (field : Field) (below : List Selection) :
    recordQuery ⟨schema', userId⟩ row anchors field below =
      recordQuery ⟨schema, userId⟩ row anchors field below := by
  have hruns : recordQuery ⟨schema', userId⟩ (row.renamed id) (anchors.map (Predicate.renamed id))
      field below = Except.map (RecordQuery.renamed id)
        (recordQuery ⟨schema, userId⟩ row anchors field below) :=
    recordQuery_renamed renaming_id h row anchors field below
  have hanchors : anchors.map (Predicate.renamed id) = anchors := by
    rw [funext Predicate.renamed_id]
    exact List.map_id' anchors
  have hrow : row.renamed id = row := rfl
  rw [hanchors, hrow, funext RecordQuery.renamed_id] at hruns
  rw [hruns]
  cases recordQuery ⟨schema, userId⟩ row anchors field below <;> rfl

/-- Schemas of the same answers compile every document alike. -/
theorem transform_eq_of_sameAnswers (h : schema.SameAnswers schema') (document : Document) :
    transform ⟨schema', userId⟩ document = transform ⟨schema, userId⟩ document := by
  have hroot : rootConnection ⟨schema', userId⟩ = rootConnection ⟨schema, userId⟩ := by
    funext s
    cases s with
    | field head below =>
      simp only [rootConnection, h.knows, recordQuery_eq_of_sameAnswers h]
    | _ => rfl
  have hroots : rootConnections ⟨schema', userId⟩ = rootConnections ⟨schema, userId⟩ := by
    funext selections
    rw [rootConnections, rootConnections, hroot]
  rw [transform, transform, hroots]

/-- **The order of metadata does not matter.** A schema in which every type stands once, and no name
means two fields or two child relationships of a type, compiles every document to the same queries,
or refuses it for the same reasons, as any rearrangement of it. -/
theorem transform_rearranged (hkeys : (schema.map (·.1)).Nodup)
    (hinfos : ∀ entry ∈ schema, entry.2.Unambiguous) (h : schema.Rearranged schema')
    (document : Document) (userId : String) :
    transform ⟨schema', userId⟩ document = transform ⟨schema, userId⟩ document :=
  transform_eq_of_sameAnswers (h.sameAnswers hkeys hinfos) document

/-- Users have a manager, and in turn people who report to them; and they have visits. -/
def staffSchema : Schema :=
  [("User", ⟨"User",
      [("name", .scalar "Name" .string), ("manager", .reference ⟨"ManagerId", "Manager", "User"⟩)],
      [("reports", ⟨"ManagerId", "User", "Reports"⟩),
       ("visits", ⟨"VisitorId", "Visit", "Visits"⟩)]⟩),
   ("Visit", ⟨"Visit", [("day", .scalar "Day" .date)], []⟩)]

/-- The same metadata, written the other way round and under other keys. -/
def staffSchema' : Schema :=
  [("Visit", ⟨"Visit", [("f1", .scalar "Day" .date)], []⟩),
   ("User", ⟨"User",
      [("f1", .reference ⟨"ManagerId", "Manager", "User"⟩), ("f2", .scalar "Name" .string)],
      [("c1", ⟨"VisitorId", "Visit", "Visits"⟩), ("c2", ⟨"ManagerId", "User", "Reports"⟩)]⟩)]

/-- The users whose manager is Ada, with the visits of their managers. -/
def staffDocument : Document :=
  [.operation .query [.field ⟨none, "uiapi", []⟩ [.field ⟨none, "query", []⟩
    [.field ⟨none, "User",
        [("where", .object [("Manager", .object [("Name", .object [("eq", .string "Ada")])])])]⟩
      (edgesNode
        [.field ⟨none, "Manager", []⟩
          [.field ⟨none, "Visits", []⟩ (edgesNode [.field ⟨none, "Id", []⟩ []])]])]]]]

def staffQuery : RecordQuery where
  predicate? := some (.compound .and
    [.hasType "User" "User",
     .refersTo "User" "User.Manager" "ManagerId",
     .hasType "User.Manager" "User",
     .comparison (.extract "User.Manager" "data.fields.Name.value") .eq (.string "Ada")])
  fields := [.child "node.Manager.Visits.edges"
    { predicate? := some (.compound .and
        [.refersTo "User.Manager.Visits" "User.Manager" "VisitorId",
         .hasType "User.Manager.Visits" "Visit"])
      fields := [.scalar "node.Id" (.extract "User.Manager.Visits" "data.id")]
      row := ⟨"User.Manager.Visits", "Visit"⟩
      first? := none
      joinNames := []
      orderBy := [] }]
  row := ⟨"User", "User"⟩
  first? := none
  joinNames := ["User.Manager"]
  orderBy := []

theorem staff_rearranged : staffSchema ≠ staffSchema' ∧ (staffSchema.map (·.1)).Nodup ∧
    (∀ entry ∈ staffSchema, entry.2.Unambiguous) ∧ staffSchema.Rearranged staffSchema' ∧
    transform ⟨staffSchema', "u1"⟩ staffDocument = .ok [staffQuery] := by
  have hkeys : (staffSchema.map (·.1)).Nodup := by decide
  have hinfos : ∀ entry ∈ staffSchema, entry.2.Unambiguous := by
    have huser : ∀ name, ¬ ((FieldInfo.scalar "Name" .string).answersTo name = true ∧
        (FieldInfo.reference ⟨"ManagerId", "Manager", "User"⟩).answersTo name = true) := by
      rintro name ⟨hname, hmanager⟩
      obtain rfl : "Name" = name := of_decide_eq_true hname
      exact absurd hmanager (by decide)
    simp only [staffSchema, List.forall_mem_cons, List.not_mem_nil, false_implies, implies_true,
      and_true]
    exact ⟨⟨by simpa using huser, by decide⟩, ⟨by simp, by simp⟩⟩
  have hrearranged : staffSchema.Rearranged staffSchema' := by
    refine ⟨[staffSchema'[1], staffSchema'[0]], ?_, .swap ..⟩
    exact .cons ⟨rfl, rfl, .swap .., .swap ..⟩ (.cons ⟨rfl, rfl, .refl _, .refl _⟩ .nil)
  exact ⟨by decide, hkeys, hinfos, hrearranged,
    (transform_rearranged hkeys hinfos hrearranged staffDocument "u1").trans rfl⟩

end SoupQuery.Compile
