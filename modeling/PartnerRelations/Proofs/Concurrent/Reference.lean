/-
# `Proofs.Concurrent.Reference` — relations and the ledger, written apart

The ledger is written beside the calls, record by record, and relations refer to its
records by identifier.  `written choices` are the identifiers of all records that an
interleaving writes, each with its tenant.  However calls and writes are interleaved:

    the ends of a stored relation were written, for the relation's tenant;

    if no step takes an identifier out of the ledger (`Ledger.Keeps`), then the ledger
    holds the ends of every stored relation, a search for inputs without a filter counts
    all relations of its tenant, and no claim fails for a record that is missing.

The condition is about upserts.  An insert takes nothing out, nor does an upsert that
gives a partner the identifier that the partner has (`Choice.holds_ledger`).  An upsert
that gives another one may, and then all three are lost: relations refer to nothing,
searches leave them out, and a claim that meets one fails as a whole.

The invariant (`System.Refers`) is about the directory of what was written so far.  A call
goes on as it should in every directory that has no less, so what is written during a
call does not disturb it.
-/
import PartnerRelations.Proofs.Concurrent.Replay
import PartnerRelations.Proofs.Relation.Coherence
import PartnerRelations.Proofs.Service.Reference

namespace PartnerRelations

/-! ## Writes to the ledger -/

namespace Choice

variable {c : Choice} {l : Ledger} {r : SharingStateRecord}

/-- The record that a step writes to the ledger. -/
def record? : Choice → Option SharingStateRecord
  | .insert record => some record
  | .upsert record => some record
  | _ => none

/-- The ledger after a step. -/
def ledger (l : Ledger) : Choice → Ledger
  | .insert record => l.insert record
  | .upsert record => Ledger.upsert record l
  | _ => l

theorem mem_ledger (h : r ∈ c.ledger l) : r ∈ l ∨ c.record? = some r := by
  cases c with
  | insert record =>
    exact (List.mem_append.1 h).imp_right fun h => congrArg some (List.mem_singleton.1 h).symm
  | upsert record => exact (Ledger.mem_upsert h).imp_right fun h => congrArg some h.symm
  | _ => exact .inl h

theorem record_mem_ledger (h : c.record? = some r) : r ∈ c.ledger l := by
  cases c with
  | insert record =>
    cases h
    exact List.mem_append_right l (List.mem_singleton.2 rfl)
  | upsert record =>
    cases h
    exact Ledger.self_mem_upsert
  | _ => cases h

/-- Only an upsert that gives a partner another identifier takes one out of the ledger. -/
theorem holds_ledger (h : ∀ record, c = .upsert record → ∀ r ∈ l,
    r.names record.tenant record.externalId = true → r.id = record.id) :
    l.Holds ≤ (c.ledger l).Holds := by
  cases c with
  | insert record => exact fun _ _ ⟨r, hr, hsame⟩ => ⟨r, List.mem_append_left _ hr, hsame⟩
  | upsert record => exact Ledger.holds_upsert (h record rfl)
  | _ => exact le_refl _

end Choice

/-- The identifiers of the records that steps write. -/
def written (choices : List Choice) : Directory :=
  Ledger.Holds (choices.filterMap Choice.record?)

/-- Steps add to what was written. -/
theorem written_concat {log : List Choice} {c : Choice} {tenant : TenantBpnl}
    {id : SharingStateId} : written (log ++ [c]) tenant id ↔
      written log tenant id ∨ ∃ r ∈ c.record?, r.tenant = tenant ∧ r.id = id := by
  cases hc : c.record? <;> simp [written, Ledger.Holds, hc, or_and_right, exists_or]

theorem written_le_concat (log : List Choice) (c : Choice) : written log ≤ written (log ++ [c]) :=
  fun _ _ h => written_concat.2 (.inl h)

/-- No step takes an identifier of a tenant's record out of the ledger. -/
def Ledger.Keeps : Ledger → List Choice → Prop
  | _, [] => True
  | l, c :: choices =>
    (∀ r ∈ l, (c.ledger l).Holds r.tenant r.id) ∧ Ledger.Keeps (c.ledger l) choices

instance Ledger.decidableKeeps : (l : Ledger) → (choices : List Choice) →
    Decidable (l.Keeps choices)
  | _, [] => inferInstanceAs (Decidable True)
  | l, c :: choices =>
    have := Ledger.decidableKeeps (c.ledger l) choices
    inferInstanceAs (Decidable (_ ∧ _))

/-! ## Turns -/

/-- The call goes on as it should in every directory that has no less. -/
def Thread.Refers (D : Directory) (kept : Prop) (t : Thread) : Prop :=
  ∀ D', D ≤ D' → t.rest.Leads (referring D' kept) (fun outcome _ => t.call.Trusts kept outcome) ()

theorem Thread.Refers.mono {D D' : Directory} {kept : Prop} {t : Thread} (ht : t.Refers D kept)
    (hle : D ≤ D') : t.Refers D' kept := fun D'' hle' => ht D'' (hle.trans hle')

/-- The failure that a call ended with. -/
def Thread.failure? (t : Thread) : Option RelationError :=
  match t.rest with
  | .done (.error e) => some e
  | _ => none

/-- Everything in the ledger was written, and stored relations refer to what was written.
A ledger that is to keep what it had has it all. -/
structure World.Refers (w : World) (D : Directory) (kept : Prop) : Prop where
  held : w.ledger.Holds ≤ D
  lasting : kept → D ≤ w.ledger.Holds
  stored : ∀ r ∈ w.tables.relations.values, r.RefersTo D

/-- The world answers as a call may expect, and what the call stores refers to what was
written. -/
theorem World.Refers.turn {w w' : World} {D : Directory} {kept : Prop} {supply : Nat → Uuid}
    {call : ServiceCall} {asked : List Turn} {q : Query} {x : q.Answer}
    {next : q.Answer → Dialogue (Except RelationError call.Result)} (hw : w.Refers D kept)
    (ht : Thread.Refers D kept ⟨call, asked, .ask q next⟩) (hanswer : w.answer supply q = (x, w')) :
    Thread.Refers D kept ⟨call, ⟨q, x⟩ :: asked, next x⟩ ∧ w'.Refers D kept ∧
      w'.ledger = w.ledger := by
  cases q with
  | findByKey key =>
    cases hanswer
    refine ⟨fun D' hle => ht D' hle _ fun r hr => ?_, hw, rfl⟩
    obtain ⟨id, -, hget⟩ := Option.bind_eq_some_iff.1 hr
    exact (hw.stored r (Table.mem_values_of_get? hget)).mono hle
  | findInState state limit =>
    cases hanswer
    refine ⟨fun D' hle => ht D' hle _ fun r hr => ?_, hw, rfl⟩
    obtain ⟨hmem, s, hs, -⟩ := Tables.mem_inState hr
    exact ⟨(hw.stored r hmem).mono hle, s, hs⟩
  | commit changes =>
    cases hcommit : w.tables.commit changes with
    | ok tables =>
      simp only [World.answer, hcommit] at hanswer
      cases hanswer
      refine ⟨fun D' hle => (ht D' hle).2.1, ⟨hw.held, hw.lasting, ?_⟩, rfl⟩
      exact Tables.forall_values_commit hw.stored (ht D (le_refl D)).1 hcommit
    | error e =>
      simp only [World.answer, hcommit] at hanswer
      cases hanswer
      exact ⟨fun D' hle => (ht D' hle).2.2 e (Tables.isCorrupt_of_commit hcommit), hw, rfl⟩
  | partnerRecords tenant externalId =>
    cases hanswer
    refine ⟨fun D' hle => ht D' hle _ fun record hrecord => hle _ _ (hw.held _ _ ?_), hw, rfl⟩
    exact Ledger.holds_ofPartner hrecord
  | partnerRecordsByIds ids =>
    cases hanswer
    refine ⟨fun D' hle => (ht D' hle).2 _ fun hkept id hid => ?_, hw, rfl⟩
    -- the call owes identifiers of `D`, which may be less than `D'`
    obtain ⟨tenant, hid'⟩ := (ht D (le_refl D)).1 id hid
    exact Ledger.isSome_last?_withIds (hw.lasting hkept _ _ hid') hid
  | _ =>
    cases hanswer
    exact ⟨fun D' hle => ht D' hle _, ⟨hw.held, hw.lasting, hw.stored⟩, rfl⟩

/-- What is written is in the directory afterwards, and so is all that was there. -/
theorem World.Refers.write {w : World} {log : List Choice} {kept : Prop} {c : Choice}
    (hw : w.Refers (written log) kept)
    (hkeeps : kept → ∀ r ∈ w.ledger, (c.ledger w.ledger).Holds r.tenant r.id) :
    World.Refers { w with ledger := c.ledger w.ledger } (written (log ++ [c])) kept where
  held := by
    rintro _ _ ⟨r, hr, rfl, rfl⟩
    rcases Choice.mem_ledger hr with hr | hr
    · exact written_le_concat log c _ _ (hw.held _ _ (Ledger.holds_of_mem hr))
    · exact written_concat.2 (.inr ⟨r, hr, rfl, rfl⟩)
  lasting hkept := by
    intro tenant id h
    rcases written_concat.1 h with h | ⟨r, hr, rfl, rfl⟩
    · obtain ⟨r, hr, rfl, rfl⟩ := hw.lasting hkept _ _ h
      exact hkeeps hkept r hr
    · exact Ledger.holds_of_mem (Choice.record_mem_ledger hr)
  stored r hr := (hw.stored r hr).mono (written_le_concat log c)

/-! ## All calls together -/

namespace System

variable {s s' : System} {log choices : List Choice} {kept : Prop} {c : Choice}

/-- The world and all calls refer to what was written so far. -/
structure Refers (s : System) (log : List Choice) (kept : Prop) : Prop where
  world : s.world.Refers (written log) kept
  threads : ∀ t ∈ s.threads, t.Refers (written log) kept

theorem refers_start (clock : Instant) (kept : Prop) : (start clock).Refers [] kept where
  world := ⟨fun _ _ h => h, fun _ _ _ h => h, fun _ h => by cases h⟩
  threads _ h := by cases h

/-- One step among the calls; it takes nothing out of a ledger that is to keep it. -/
theorem Refers.step (hr : s.Refers log kept)
    (hkeeps : kept → ∀ r ∈ s.world.ledger, (c.ledger s.world.ledger).Holds r.tenant r.id)
    (hstep : s.step c = some s') :
    s'.Refers (log ++ [c]) kept ∧ s'.world.ledger = c.ledger s.world.ledger := by
  have threads : ∀ t ∈ s'.threads, t.Refers (written log) kept :=
    forall_threads_step hstep (fun call D' _ => call.leads_referring D' kept)
      (fun hanswer ht => (hr.world.turn ht hanswer).1) hr.threads
  suffices s'.world.Refers (written (log ++ [c])) kept ∧
      s'.world.ledger = c.ledger s.world.ledger from
    ⟨⟨this.1, fun t ht => (threads t ht).mono (written_le_concat log c)⟩, this.2⟩
  have world := hr.world.write hkeeps
  cases c with
  | turn i id =>
    obtain ⟨before, call, asked, q, next, after, x, w, -, hthreads, hanswer, -, rfl⟩ :=
      step_turn_eq_some hstep
    have hcall : Thread.Refers (written log) kept ⟨call, asked, .ask q next⟩ :=
      hr.threads _ (hthreads ▸ List.mem_append_right before (List.mem_cons_self ..))
    obtain ⟨-, hw, hledger⟩ := world.turn (hcall.mono (written_le_concat log _)) hanswer
    exact ⟨hw, hledger⟩
  | clock at_ =>
    cases hstep
    exact ⟨⟨world.held, world.lasting, world.stored⟩, rfl⟩
  | _ =>
    cases hstep
    exact ⟨world, rfl⟩

theorem Refers.play (hr : s.Refers log kept) (hkeeps : kept → s.world.ledger.Keeps choices)
    (hplay : s.play choices = some s') : s'.Refers (log ++ choices) kept := by
  induction choices generalizing s log with
  | nil =>
    cases hplay
    rwa [List.append_nil]
  | cons c choices ih =>
    obtain ⟨next, hstep, hrest⟩ := Option.bind_eq_some_iff.1 hplay
    obtain ⟨hnext, hledger⟩ := hr.step (fun hkept => (hkeeps hkept).1) hstep
    rw [List.append_cons]
    exact ih hnext (fun hkept => hledger ▸ (hkeeps hkept).2) hrest

/-- The parts of a stored relation are there and fit. -/
theorem Reachable.sane (hs : s.Reachable) {r : Relation}
    (hr : r ∈ s.world.tables.relations.values) : r.isCreated = true ∧ r.Sane := by
  obtain ⟨h, zs, hi⟩ := hs.invariant
  have hget := hi.accounts.sound.mem_values.1 hr
  exact ⟨(hi.accounts.stored hget).2,
    (hi.accounts.evolves (hi.accounts.arrives hget)).sane (Relation.sane_empty ..)⟩

end System

/-- However calls and writes to the ledger are interleaved, stored relations refer to
records that were written for their tenant.  If no identifier was taken out of the
ledger, it holds all of them, no stored relation is missing from an unfiltered search,
and no claim has failed for a stored value that stands for nothing. -/
theorem relations_refer_to_records {clock : Instant} {choices : List Choice} {s : System}
    (hplay : (System.start clock).play choices = some s) :
    (∀ r ∈ s.world.tables.relations.values, r.RefersTo (written choices)) ∧
    (Ledger.Keeps [] choices →
      (∀ r ∈ s.world.tables.relations.values, ∃ stage, r.input = some stage ∧
        s.world.ledger.Holds r.tenant stage.source ∧ s.world.ledger.Holds r.tenant stage.target) ∧
      (∀ tenant page, (s.world.tables.searchInput s.world.ledger tenant default page).totalElements =
        (s.world.tables.relations.values.filter fun r => r.tenant = tenant).length) ∧
      ∀ t ∈ s.threads, ∀ limit reason, t.call = .claim limit →
        t.failure? ≠ some (.store (.corrupt reason))) := by
  have hrefers : s.Refers choices (Ledger.Keeps [] choices) :=
    (System.refers_start clock _).play id hplay
  refine ⟨hrefers.world.stored, fun hkept => ?_⟩
  have hinput : ∀ r ∈ s.world.tables.relations.values, ∃ stage, r.input = some stage := by
    intro r hr
    obtain ⟨hcreated, hsane⟩ := System.Reachable.sane ⟨clock, choices, hplay⟩ hr
    obtain ⟨stage, -, hstage, -⟩ := hsane.present hcreated
    exact ⟨stage, hstage⟩
  have hholds : ∀ r ∈ s.world.tables.relations.values, r.RefersTo s.world.ledger.Holds :=
    fun r hr => (hrefers.world.stored r hr).mono (hrefers.world.lasting hkept)
  refine ⟨fun r hr => ?_, fun tenant page => ?_, ?_⟩
  · obtain ⟨stage, hstage⟩ := hinput r hr
    exact ⟨stage, hstage, hholds r hr stage hstage⟩
  · exact Tables.totalElements_searchInput page fun r hr _ => ⟨hinput r hr, hholds r hr⟩
  · rintro ⟨call, asked, rest⟩ ht limit reason rfl hfailure
    have hend := hrefers.threads _ ht _ (le_refl _)
    unfold Thread.failure? at hfailure
    split at hfailure
    · next e heq =>
      cases hfailure
      rw [heq] at hend
      cases hend hkept
    · cases hfailure

private abbrev ledgerTenant : TenantBpnl := ⟨"T8", by cbv, by decide⟩
private abbrev ledgerName : ExternalId := ⟨"R11", by cbv, by decide⟩
private abbrev ledgerPartner : ExternalId := ⟨"P11", by cbv, by decide⟩
private abbrev ledgerPartner' : ExternalId := ⟨"P12", by cbv, by decide⟩

/-- A relation between two partners is stored.  Then the first partner, who had the
identifier 1, is written again under a given one, and a claim takes some turns. -/
def rewriting (id : Uuid) (turns : Nat) : List Choice := List.flatten
  [[.insert (.fresh ⟨.ofNat 1⟩ ledgerTenant ledgerPartner .epoch),
      .insert (.fresh ⟨.ofNat 2⟩ ledgerTenant ledgerPartner' .epoch),
      .arrive (.write (.batch (.upsert .standard ledgerTenant)
        [⟨ledgerName, .isManagedBy, ledgerPartner, ledgerPartner'⟩]))],
    (List.range 11).map fun n => .turn 0 (.ofNat (100 + n)),
    [.upsert (.fresh ⟨id⟩ ledgerTenant ledgerPartner .epoch), .arrive (.claim 5)],
    (List.range turns).map fun n => .turn 1 (.ofNat (200 + n))]

set_option maxRecDepth 4000 in
/-- Under its own identifier, the partner is found by the search and by the claim. -/
theorem rewritten_refers : ∃ s, (System.start .epoch).play (rewriting (.ofNat 1) 8) = some s ∧
    Ledger.Keeps [] (rewriting (.ofNat 1) 8) ∧
    s.world.tables.relations.values.length = 1 ∧ s.Finished ∧
    (∀ r ∈ s.world.tables.relations.values, ∃ stage, r.input = some stage ∧
      s.world.ledger.Holds r.tenant stage.source ∧ s.world.ledger.Holds r.tenant stage.target) ∧
    (s.world.tables.searchInput s.world.ledger ledgerTenant default .first).totalElements =
      (s.world.tables.relations.values.filter fun r => r.tenant = ledgerTenant).length ∧
    ∀ t ∈ s.threads, ∀ limit reason, t.call = .claim limit →
      t.failure? ≠ some (.store (.corrupt reason)) := by
  have hrun : ((System.start .epoch).play (rewriting (.ofNat 1) 8)).map (fun s =>
      (s.world.tables.relations.values.length, s.threads.all Thread.isFinished)) =
      some (1, true) := by cbv
  obtain ⟨s, hplay, hs⟩ := Option.map_eq_some_iff.1 hrun
  obtain ⟨hlength, hall⟩ := Prod.mk.inj hs
  have hkept : Ledger.Keeps [] (rewriting (.ofNat 1) 8) := by decide
  obtain ⟨hstored, hsearch, hclaims⟩ := (relations_refer_to_records hplay).2 hkept
  exact ⟨s, hplay, hkept, hlength, List.all_eq_true.1 hall, hstored, hsearch _ _, hclaims⟩

set_option maxRecDepth 4000 in
/-- Under another identifier, the ledger holds an end of the relation no longer, the
search leaves the relation out, and the claim fails. -/
theorem renumbered_dangles : ∃ s, (System.start .epoch).play (rewriting (.ofNat 3) 5) = some s ∧
    (∃ r ∈ s.world.tables.relations.values, r.tenant = ledgerTenant ∧
      ∃ stage, r.input = some stage ∧ ¬s.world.ledger.Holds r.tenant stage.source) ∧
    (s.world.tables.searchInput s.world.ledger ledgerTenant default .first).totalElements = 0 ∧
    ∃ t ∈ s.threads, t.call = .claim 5 ∧ t.failure? = some (.store (.corrupt
      "sharing state 00000000-0000-0000-0000-000000000001 referenced by relation 'R11' is missing")) := by
  have hrun : ((System.start .epoch).play (rewriting (.ofNat 3) 5)).map (fun s =>
      (s.world.tables.relations.values.map fun r => (r.tenant, r.input.map fun stage =>
          decide (s.world.ledger.Holds r.tenant stage.source)),
        (s.world.tables.searchInput s.world.ledger ledgerTenant default .first).totalElements,
        s.threads[1]?.map fun t => (t.call, t.failure?))) =
      some ([(ledgerTenant, some false)], 0, some (.claim 5, some (.store (.corrupt
        "sharing state 00000000-0000-0000-0000-000000000001 referenced by relation 'R11' is missing")))) := by
    cbv
  obtain ⟨s, hplay, hs⟩ := Option.map_eq_some_iff.1 hrun
  obtain ⟨hstored, hs⟩ := Prod.mk.inj hs
  obtain ⟨hsearch, hclaim⟩ := Prod.mk.inj hs
  obtain ⟨r, hr, hends⟩ := List.mem_map.1 (hstored ▸ List.mem_singleton.2 rfl)
  obtain ⟨htenant, hinput⟩ := Prod.mk.inj hends
  obtain ⟨stage, hstage, hheld⟩ := Option.map_eq_some_iff.1 hinput
  obtain ⟨t, ht, hfailed⟩ := Option.map_eq_some_iff.1 hclaim
  exact ⟨s, hplay, ⟨r, hr, htenant, stage, hstage, of_decide_eq_false hheld⟩, hsearch,
    t, List.mem_of_getElem? ht, (Prod.mk.inj hfailed).1, (Prod.mk.inj hfailed).2⟩

end PartnerRelations
