/-
# `Proofs.Json.RoundTrip` — what is written as JSON is read back

For every type that goes over the wire, with all its values `a` and all JSON values `j`:

    PlainYears a → Words a → ofJson? (toJson a) = some a
    ofJson? j = some a → PlainYears a → ofJson? (toJson a) = some a

`PlainYears` asks that the timestamps in the value lie in the years 0 to 9999, and `Words`
that its 64-bit counts are such.  What was read always satisfies the second, so the second
line asks for the first only.  It makes `toJson a` the canonical form of `j`: it is read as
the same value, and written again it is itself (`RoundTrips`).

The types differ in their fields only, so a type is dealt with by naming its timestamps and
counts (`Contents`) and by reading its fields one after the other (`Faithful`).  What has
neither timestamps nor counts is lawful without conditions.
-/
import Mathlib.Data.List.Basic
import PartnerRelations.Json.Exchange
import PartnerRelations.Proofs.Json.Form

namespace PartnerRelations

/-- What of a value may be too large for its JSON form. -/
class Contents (α : Type) where
  timestamps : α → List Instant
  /-- The counts that are 64-bit words. -/
  counts : α → List Nat := fun _ => []

section

variable {α : Type} [Contents α]

/-- All timestamps of the value lie in the years 0 to 9999. -/
def PlainYears (a : α) : Prop := ∀ i ∈ Contents.timestamps a, i.HasPlainYear

/-- All counts of the value have 64 bits. -/
def Words (a : α) : Prop := ∀ n ∈ Contents.counts a, n < UInt64.size

instance (a : α) : Decidable (PlainYears a) :=
  inferInstanceAs (Decidable (∀ i ∈ Contents.timestamps a, i.HasPlainYear))

instance (a : α) : Decidable (Words a) :=
  inferInstanceAs (Decidable (∀ n ∈ Contents.counts a, n < UInt64.size))

/-- Values that fit are read back, and what is read has counts that fit. -/
class Faithful (α : Type) [JsonForm α] [Contents α] : Prop where
  ofJson?_toJson {a : α} : PlainYears a → Words a → ofJson? (toJson a) = some a
  words_of_ofJson? {j : Json} {a : α} : ofJson? j = some a → Words a

/-- Decoding undoes encoding, and encoding what was decoded gives a canonical form. -/
structure RoundTrips (α : Type) [JsonForm α] [Contents α] : Prop where
  decode_encode (a : α) : PlainYears a → Words a → ofJson? (toJson a) = some a
  canonical (j : Json) (a : α) : ofJson? j = some a → PlainYears a →
    Json.reread? α j = some (toJson a) ∧ ofJson? (toJson a) = some a ∧
      Json.reread? α (toJson a) = some (toJson a)

/-- A lawful type without timestamps and counts is read back in any case. -/
theorem Faithful.of_lawful [JsonForm α] [LawfulJsonForm α]
    (h : ∀ a : α, Contents.counts a = []) : Faithful α where
  ofJson?_toJson _ _ := LawfulJsonForm.ofJson?_toJson _
  words_of_ofJson? {_ a} _ := by
    rw [Words, h a]
    exact List.forall_mem_nil _

theorem RoundTrips.of_faithful [JsonForm α] [Faithful α] : RoundTrips α where
  decode_encode _ := Faithful.ofJson?_toJson
  canonical j a hj hyears := by
    have hback := Faithful.ofJson?_toJson hyears (Faithful.words_of_ofJson? hj)
    exact ⟨congrArg (Option.map toJson) hj, hback, congrArg (Option.map toJson) hback⟩

end

/-! ## Values without timestamps and counts -/

instance : LawfulJsonForm ResolvedPartner where
  ofJson?_toJson _ := by unfold instJsonFormResolvedPartner; simp

instance : LawfulJsonForm PartnerReference where
  ofJson?_toJson _ := by unfold instJsonFormPartnerReference; simp

instance : LawfulJsonForm RelationSharingTask where
  ofJson?_toJson _ := by unfold instJsonFormRelationSharingTask; simp

instance : LawfulJsonForm SharingStateFilter where
  ofJson?_toJson _ := by unfold instJsonFormSharingStateFilter; simp

instance : LawfulJsonForm NewInputRelation where
  ofJson?_toJson _ := by unfold instJsonFormNewInputRelation; simp

instance : LawfulJsonForm InputRelationUpsert where
  ofJson?_toJson _ := by unfold instJsonFormInputRelationUpsert; simp

instance : LawfulJsonForm OutputRelationUpsert where
  ofJson?_toJson _ := by unfold instJsonFormOutputRelationUpsert; simp

instance : LawfulJsonForm SharingErrorReport where
  ofJson?_toJson _ := by unfold instJsonFormSharingErrorReport; simp

instance : Contents RelationSharingTask where timestamps _ := []
instance : Contents SharingStateFilter where timestamps _ := []
instance : Contents NewInputRelation where timestamps _ := []
instance : Contents InputRelationUpsert where timestamps _ := []
instance : Contents OutputRelationUpsert where timestamps _ := []
instance : Contents SharingErrorReport where timestamps _ := []

instance : Faithful RelationSharingTask := .of_lawful fun _ => rfl
instance : Faithful SharingStateFilter := .of_lawful fun _ => rfl
instance : Faithful NewInputRelation := .of_lawful fun _ => rfl
instance : Faithful InputRelationUpsert := .of_lawful fun _ => rfl
instance : Faithful OutputRelationUpsert := .of_lawful fun _ => rfl
instance : Faithful SharingErrorReport := .of_lawful fun _ => rfl

/-! ## Values with timestamps -/

instance : Contents RelationStage where timestamps s := [s.createdAt, s.updatedAt]
instance : Contents RelationOutput where timestamps o := [o.updatedAt]
instance : Contents RelationSharingState where timestamps s := [s.updatedAt]
instance : Contents SharingStateRecord where timestamps r := [r.updatedAt]
instance : Contents InputRelation where timestamps r := [r.createdAt, r.updatedAt]
instance : Contents OutputRelation where timestamps r := [r.updatedAt]
instance : Contents RelationSharingStateView where timestamps s := [s.updatedAt]
instance : Contents InputRelationFilter where timestamps f := f.updatedAfter.toList
instance : Contents OutputRelationFilter where timestamps f := f.updatedAfter.toList
instance : Contents RelationEvent where timestamps e := [e.occurredAt]

theorem PlainYears.read {α : Type} [Contents α] {a : α} {i : Instant} (h : PlainYears a)
    (hi : i ∈ Contents.timestamps a) : ofJson? (toJson i) = some i :=
  Instant.ofJson?_toJson (h i hi)

theorem PlainYears.read_option {α : Type} [Contents α] {a : α} {i : Option Instant}
    (h : PlainYears a) (hi : i.toList ⊆ Contents.timestamps a) : ofJson? (toJson i) = some i :=
  ofJson?_toJson_option fun _ hj => h.read (hi (Option.mem_toList.2 hj))

instance : Faithful RelationStage where
  ofJson?_toJson {s} hyears _ := by
    have hcreated : ofJson? (toJson s.createdAt) = some s.createdAt :=
      hyears.read (List.mem_cons_self ..)
    have hupdated : ofJson? (toJson s.updatedAt) = some s.updatedAt :=
      hyears.read (List.mem_cons_of_mem _ (List.mem_singleton_self _))
    unfold instJsonFormRelationStage
    simp [hcreated, hupdated]
  words_of_ofJson? _ := List.forall_mem_nil _

instance : Faithful InputRelation where
  ofJson?_toJson {r} hyears _ := by
    have hcreated : ofJson? (toJson r.createdAt) = some r.createdAt :=
      hyears.read (List.mem_cons_self ..)
    have hupdated : ofJson? (toJson r.updatedAt) = some r.updatedAt :=
      hyears.read (List.mem_cons_of_mem _ (List.mem_singleton_self _))
    unfold instJsonFormInputRelation
    simp [hcreated, hupdated]
  words_of_ofJson? _ := List.forall_mem_nil _

instance : Faithful RelationOutput where
  ofJson?_toJson {o} hyears _ := by
    have hupdated : ofJson? (toJson o.updatedAt) = some o.updatedAt :=
      hyears.read (List.mem_singleton_self _)
    unfold instJsonFormRelationOutput
    simp [hupdated]
  words_of_ofJson? _ := List.forall_mem_nil _

instance : Faithful RelationSharingState where
  ofJson?_toJson {s} hyears _ := by
    have hupdated : ofJson? (toJson s.updatedAt) = some s.updatedAt :=
      hyears.read (List.mem_singleton_self _)
    unfold instJsonFormRelationSharingState
    simp [hupdated]
  words_of_ofJson? _ := List.forall_mem_nil _

instance : Faithful SharingStateRecord where
  ofJson?_toJson {r} hyears _ := by
    have hupdated : ofJson? (toJson r.updatedAt) = some r.updatedAt :=
      hyears.read (List.mem_singleton_self _)
    unfold instJsonFormSharingStateRecord
    simp [hupdated]
  words_of_ofJson? _ := List.forall_mem_nil _

instance : Faithful OutputRelation where
  ofJson?_toJson {r} hyears _ := by
    have hupdated : ofJson? (toJson r.updatedAt) = some r.updatedAt :=
      hyears.read (List.mem_singleton_self _)
    unfold instJsonFormOutputRelation
    simp [hupdated]
  words_of_ofJson? _ := List.forall_mem_nil _

instance : Faithful RelationSharingStateView where
  ofJson?_toJson {s} hyears _ := by
    have hupdated : ofJson? (toJson s.updatedAt) = some s.updatedAt :=
      hyears.read (List.mem_singleton_self _)
    unfold instJsonFormRelationSharingStateView
    simp [hupdated]
  words_of_ofJson? _ := List.forall_mem_nil _

instance : Faithful InputRelationFilter where
  ofJson?_toJson {f} hyears _ := by
    have hafter : ofJson? (toJson f.updatedAfter) = some f.updatedAfter :=
      hyears.read_option (List.Subset.refl _)
    unfold instJsonFormInputRelationFilter
    simp [hafter]
  words_of_ofJson? _ := List.forall_mem_nil _

instance : Faithful OutputRelationFilter where
  ofJson?_toJson {f} hyears _ := by
    have hafter : ofJson? (toJson f.updatedAfter) = some f.updatedAfter :=
      hyears.read_option (List.Subset.refl _)
    unfold instJsonFormOutputRelationFilter
    simp [hafter]
  words_of_ofJson? _ := List.forall_mem_nil _

/-- An event is read under the name of its kind, which no other kind has. -/
instance : Faithful RelationEvent where
  ofJson?_toJson {e} hyears _ := by
    have hat : ofJson? (toJson e.occurredAt) = some e.occurredAt :=
      hyears.read (List.mem_singleton_self _)
    unfold instJsonFormRelationEvent
    cases e with
    | outputPublished id output =>
      have houtput : ofJson? (toJson output) = some output :=
        Faithful.ofJson?_toJson hyears (List.forall_mem_nil _)
      simp [RelationEvent.tag, RelationEvent.body, RelationEvent.ofBody?, houtput]
    | _ =>
      simp only [RelationEvent.occurredAt] at hat
      simp [RelationEvent.tag, RelationEvent.body, RelationEvent.ofBody?, hat]
  words_of_ofJson? _ := List.forall_mem_nil _

/-! ## Values with counts -/

section

variable {α : Type} [JsonForm α]

theorem exists_of_required {j : Json} {name : String} {a : α} (h : j.required name = some a) :
    ∃ value, ofJson? value = some a := by
  obtain ⟨value, -, hvalue⟩ := Option.bind_eq_some_iff.1 h
  exact ⟨value, hvalue⟩

theorem exists_of_mem {j : Json} {as : List α} {a : α} (h : ofJson? j = some as) (ha : a ∈ as) :
    ∃ value, ofJson? value = some a := by
  cases j with
  | arr elements =>
    replace h : elements.mapM ofJson? = some as := h
    induction elements generalizing as with
    | nil =>
      cases h
      cases ha
    | cons value values ih =>
      rw [List.mapM_cons] at h
      obtain ⟨first, hfirst, h⟩ := Option.bind_eq_some_iff.1 h
      obtain ⟨rest, hrest, h⟩ := Option.bind_eq_some_iff.1 h
      cases h
      rcases List.mem_cons.1 ha with rfl | ha
      · exact ⟨value, hfirst⟩
      · exact ih ha hrest
  | _ => cases h

variable [Contents α]

instance : Contents (EventEnvelope α) where
  timestamps e := Contents.timestamps e.payload
  counts e := e.sequenceNumber :: Contents.counts e.payload

instance : Contents (Page α) where
  timestamps p := p.content.flatMap Contents.timestamps
  counts p := p.totalElements :: p.totalPages :: p.content.flatMap Contents.counts

variable [Faithful α]

instance : Faithful (EventEnvelope α) where
  ofJson?_toJson {e} hyears hwords := by
    obtain ⟨hnumber, hpayload⟩ := List.forall_mem_cons.1 hwords
    have hnumber : ofJson? (toJson e.sequenceNumber) = some e.sequenceNumber :=
      ofJson?_toJson_count hnumber
    have hpayload : ofJson? (toJson e.payload) = some e.payload :=
      Faithful.ofJson?_toJson hyears hpayload
    unfold instJsonFormEventEnvelope
    simp [hnumber, hpayload]
  words_of_ofJson? {j e} h := by
    unfold instJsonFormEventEnvelope at h
    simp only [Option.bind_eq_bind, Option.bind_eq_some_iff] at h
    obtain ⟨_, -, _, -, _, -, _, -, number, hnumber, payload, hpayload, he⟩ := h
    cases he
    obtain ⟨_, hnumber⟩ := exists_of_required hnumber
    obtain ⟨_, hpayload⟩ := exists_of_required hpayload
    exact List.forall_mem_cons.2 ⟨Json.lt_of_below? hnumber, Faithful.words_of_ofJson? hpayload⟩

instance : Faithful (Page α) where
  ofJson?_toJson {p} hyears hwords := by
    obtain ⟨htotal, hwords⟩ := List.forall_mem_cons.1 hwords
    obtain ⟨hpages, hwords⟩ := List.forall_mem_cons.1 hwords
    have htotal : ofJson? (toJson p.totalElements) = some p.totalElements :=
      ofJson?_toJson_count htotal
    have hpages : ofJson? (toJson p.totalPages) = some p.totalPages :=
      ofJson?_toJson_count hpages
    have hcontent : ofJson? (toJson p.content) = some p.content :=
      ofJson?_toJson_list fun a ha => Faithful.ofJson?_toJson
        (fun i hi => hyears i (List.mem_flatMap.2 ⟨a, ha, hi⟩))
        (fun n hn => hwords n (List.mem_flatMap.2 ⟨a, ha, hn⟩))
    unfold instJsonFormPage
    simp [htotal, hpages, hcontent]
  words_of_ofJson? {j p} h := by
    unfold instJsonFormPage at h
    simp only [Option.bind_eq_bind, Option.bind_eq_some_iff] at h
    obtain ⟨total, htotal, pages, hpages, _, -, _, -, content, hcontent, hp⟩ := h
    cases hp
    obtain ⟨_, htotal⟩ := exists_of_required htotal
    obtain ⟨_, hpages⟩ := exists_of_required hpages
    obtain ⟨_, hcontent⟩ := exists_of_required hcontent
    refine List.forall_mem_cons.2 ⟨Json.lt_of_below? htotal, ?_⟩
    refine List.forall_mem_cons.2 ⟨Json.lt_of_below? hpages, fun n hn => ?_⟩
    obtain ⟨a, ha, hn⟩ := List.mem_flatMap.1 hn
    obtain ⟨_, ha⟩ := exists_of_mem hcontent ha
    exact Faithful.words_of_ofJson? ha n hn

end

/-! ## All types -/

/-- Events, stored records, requests, filters, views, pages and tasks are read back from
their JSON, and whatever is read as one of them has a canonical form. -/
theorem json_round_trips :
    RoundTrips RelationEvent ∧ RoundTrips RelationEnvelope ∧
    RoundTrips RelationStage ∧ RoundTrips RelationOutput ∧ RoundTrips RelationSharingState ∧
    RoundTrips SharingStateRecord ∧
    RoundTrips NewInputRelation ∧ RoundTrips InputRelationUpsert ∧
    RoundTrips OutputRelationUpsert ∧ RoundTrips SharingErrorReport ∧
    RoundTrips InputRelationFilter ∧ RoundTrips OutputRelationFilter ∧
    RoundTrips SharingStateFilter ∧
    RoundTrips InputRelation ∧ RoundTrips OutputRelation ∧ RoundTrips RelationSharingStateView ∧
    RoundTrips (Page InputRelation) ∧ RoundTrips RelationSharingTask :=
  ⟨.of_faithful, .of_faithful, .of_faithful, .of_faithful, .of_faithful, .of_faithful,
    .of_faithful, .of_faithful, .of_faithful, .of_faithful, .of_faithful, .of_faithful,
    .of_faithful, .of_faithful, .of_faithful, .of_faithful, .of_faithful, .of_faithful⟩

/-! An event in half of a leap second, and a stage in another spelling. -/

private abbrev leapSecond : Instant := ⟨17166, 86399, 1500000000, by decide, .inr (by decide)⟩

private abbrev leapEnvelope : RelationEnvelope :=
  { eventId := .ofNat 9, tenant := ⟨"T9", by cbv, by decide⟩, aggregateId := ⟨.ofNat 7⟩
    aggregateType := relationAggregateType, sequenceNumber := 18446744073709551615
    payload := .sharingFailed ⟨.ofNat 7⟩ "" leapSecond }

private abbrev spelledStage : Json := .obj
  [("stage", .obj [("Input", .null)]),
   ("relationId", .str "URN:UUID:00000000-0000-0000-0000-00000000000A"),
   ("relationType", .str "IsOwnedBy"), ("source", .str "00000000000000000000000000000001"),
   ("target", .str "\x7b00000000-0000-0000-0000-000000000002\x7d"), ("note", .int 3),
   ("createdAt", .str " 2017-01-01t01:29:60.5+01:30"),
   ("updatedAt", .str "2017-01-01T00:00:01.0100Z")]

private abbrev plainStage : RelationStage :=
  { relationId := ⟨.ofNat 10⟩, stage := .input, relationType := .isOwnedBy, source := ⟨.ofNat 1⟩
    target := ⟨.ofNat 2⟩, createdAt := leapSecond
    updatedAt := ⟨17167, 1, 10000000, by decide, .inl (by decide)⟩ }

theorem leap_second_round_trips :
    (PlainYears leapEnvelope ∧ Words leapEnvelope ∧
      ofJson? (toJson leapEnvelope) = some leapEnvelope) ∧
    ofJson? spelledStage = some plainStage ∧ PlainYears plainStage ∧
      Json.reread? RelationStage (toJson plainStage) = some (toJson plainStage) := by
  have hyears : PlainYears leapEnvelope := by decide
  have hwords : Words leapEnvelope := by decide
  have hread : ofJson? spelledStage = some plainStage := by decide +kernel
  have hplain : PlainYears plainStage := by decide
  have henvelope := json_round_trips.2.1.decode_encode leapEnvelope hyears hwords
  have hstage := json_round_trips.2.2.1.canonical spelledStage plainStage hread hplain
  exact ⟨⟨hyears, hwords, henvelope⟩, hread, hplain, hstage.2.2⟩

end PartnerRelations
