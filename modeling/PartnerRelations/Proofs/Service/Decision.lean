/-
# `Proofs.Service.Decision` — what an entry of a batch comes to

The handling of an entry asks the store, the ledger and the supply of identifiers,
and gives one command.  With nobody else at work its outcome is a function of what
it can see, which `BatchKind.decision` writes down without any asking:

    l          the ledger
    drawn      how many identifiers were drawn before
    at_        the moment
    seen       what is seen under each name

A `Decision` is a relation, one that is seen or a new one (`Subject`), with the
events of the one command that is given to it.  `entry_decides` says that the entry
does what was decided: the unit of work remembers the relation with its events, and
the identifiers of their envelopes are the next ones of the supply.
-/
import PartnerRelations.Proofs.World.Call

namespace PartnerRelations

namespace Ledger

/-- The partner of a name, if the ledger knows exactly one record for it. -/
def resolve (l : Ledger) (tenant : TenantBpnl) (missing : ExternalId → RelationError)
    (externalId : ExternalId) : Except RelationError ResolvedPartner := do
  match ← (only tenant externalId (l.ofPartner tenant externalId)).mapError .ofLedger with
  | some record => return record.resolved
  | none => throw (missing externalId)

/-- The two partners of an input. -/
def ends (l : Ledger) (tenant : TenantBpnl) (source target : ExternalId) :
    Except RelationError (ResolvedPartner × ResolvedPartner) :=
  if source = target then
    .error (.invalidRelation s!"source and target '{source.text}' must differ")
  else do
    let source ← l.resolve tenant .sourceNotFound source
    let target ← l.resolve tenant .targetNotFound target
    return (source, target)

end Ledger

/-- What an entry comes to: the relation it is about, what happens to it, and how
many identifiers it draws before. -/
structure Decision where
  relation : Relation
  events : List RelationEvent
  drawn : Nat

namespace Decision

/-- A command is given to a relation. -/
def give (externalId : ExternalId) (r : Relation) (command : RelationCommand) (drawn : Nat) :
    Except RelationError Decision :=
  match r.handle command with
  | .ok events => .ok ⟨r, events, drawn⟩
  | .error error => .error (.ofDomain externalId error)

/-- A relation is created under the identifier `id`. -/
def create (l : Ledger) (at_ : Instant) (id : Uuid) (drawn : Nat) (tenant : TenantBpnl)
    (request : InputRelationUpsert) : Except RelationError Decision := do
  let (source, target) ← l.ends tenant request.sourceExternalId request.targetExternalId
  give request.externalId (.empty ⟨id⟩ tenant request.externalId)
    (.createInput request.relationType source target at_) drawn

/-- A relation that is there is updated. -/
def update (l : Ledger) (at_ : Instant) (existing : Relation) (request : InputRelationUpsert) :
    Except RelationError Decision := do
  let (source, target) ← l.ends existing.tenant request.sourceExternalId request.targetExternalId
  give request.externalId existing (.updateInput request.relationType source target at_) 0

/-- What is seen under a name, which has to be there. -/
def existing (seen : RelationKey → Option Relation) (key : RelationKey) :
    Except RelationError Relation :=
  match seen key with
  | some r => .ok r
  | none => .error (.notFound key.externalId)

end Decision

namespace BatchKind

/-- The name that an entry looks up. -/
def key? : (kind : BatchKind) → kind.Request → Option RelationKey
  | .create tenant, request => request.externalId.map (⟨tenant, ·⟩)
  | .upsert _ tenant, request => some ⟨tenant, request.externalId⟩
  | .update tenant, request => some ⟨tenant, request.externalId⟩
  | .output, request => some ⟨request.tenant, request.externalId⟩
  | .report, request => some ⟨request.tenant, request.externalId⟩

/-- What an entry comes to, by what it can see. -/
def decision (supply : Nat → Uuid) (l : Ledger) (drawn : Nat) (at_ : Instant)
    (seen : RelationKey → Option Relation) :
    (kind : BatchKind) → kind.Request → Except RelationError Decision
  | .create tenant, request =>
    match request.externalId with
    | some externalId =>
      match seen ⟨tenant, externalId⟩ with
      | some _ => .error (.alreadyExists externalId)
      | none => Decision.create l at_ (supply drawn) 1 tenant ⟨externalId, request.relationType,
          request.sourceExternalId, request.targetExternalId⟩
    | none => Decision.create l at_ (supply (drawn + 1)) 2 tenant
        ⟨.ofUuid .externalId (supply drawn), request.relationType,
          request.sourceExternalId, request.targetExternalId⟩
  | .upsert _ tenant, request =>
    match seen ⟨tenant, request.externalId⟩ with
    | some existing => Decision.update l at_ existing request
    | none => Decision.create l at_ (supply drawn) 1 tenant request
  | .update tenant, request => do
    let existing ← Decision.existing seen ⟨tenant, request.externalId⟩
    Decision.update l at_ existing request
  | .output, request =>
    if request.sourceBpnl = request.targetBpnl then
      .error (.invalidRelation
        s!"source and target BPNL '{request.sourceBpnl.text}' must differ")
    else do
      let existing ← Decision.existing seen ⟨request.tenant, request.externalId⟩
      Decision.give request.externalId existing
        (.publishOutput request.relationType request.sourceBpnl request.targetBpnl at_) 0
  | .report, request => do
    let existing ← Decision.existing seen ⟨request.tenant, request.externalId⟩
    Decision.give request.externalId existing (.failSharing request.message at_) 0

end BatchKind

/-- The relation that an entry is about: one that is seen under the name that the
entry looks up, or a new one under a name that is free or generated. -/
inductive Decision.Subject (supply : Nat → Uuid) (drawn : Nat)
    (seen : RelationKey → Option Relation) : Option RelationKey → Relation → Nat → Prop where
  | existing {key : RelationKey} {r : Relation} : seen key = some r →
      Subject supply drawn seen (some key) r 0
  | named {key : RelationKey} : seen key = none →
      Subject supply drawn seen (some key)
        (.empty ⟨supply drawn⟩ key.tenant key.externalId) 1
  | generated {tenant : TenantBpnl} :
      Subject supply drawn seen none
        (.empty ⟨supply (drawn + 1)⟩ tenant (.ofUuid .externalId (supply drawn))) 2

namespace Decision

variable {supply : Nat → Uuid} {l : Ledger} {drawn : Nat} {at_ : Instant}
  {seen : RelationKey → Option Relation} {d : Decision} {externalId : ExternalId} {r : Relation}

theorem give_eq_ok {command : RelationCommand} {n : Nat} (h : give externalId r command n = .ok d) :
    d.relation = r ∧ d.drawn = n ∧ r.handle command = .ok d.events := by
  unfold give at h
  split at h
  · next events hc =>
    cases h
    exact ⟨rfl, rfl, hc⟩
  · cases h

theorem create_eq_ok {id : Uuid} {n : Nat} {tenant : TenantBpnl} {request : InputRelationUpsert}
    (h : create l at_ id n tenant request = .ok d) :
    d.relation = .empty ⟨id⟩ tenant request.externalId ∧ d.drawn = n ∧
      ∃ command, d.relation.handle command = .ok d.events ∧ command.isDelete = false := by
  obtain ⟨⟨source, target⟩, -, h⟩ := Relation.bind_eq_ok.1 h
  obtain ⟨hr, hn, hc⟩ := give_eq_ok h
  exact ⟨hr, hn, _, hr ▸ hc, rfl⟩

theorem update_eq_ok {request : InputRelationUpsert} (h : update l at_ r request = .ok d) :
    d.relation = r ∧ d.drawn = 0 ∧
      ∃ command, d.relation.handle command = .ok d.events ∧ command.isDelete = false := by
  obtain ⟨⟨source, target⟩, -, h⟩ := Relation.bind_eq_ok.1 h
  obtain ⟨hr, hn, hc⟩ := give_eq_ok h
  exact ⟨hr, hn, _, hr ▸ hc, rfl⟩

theorem existing_eq_ok {key : RelationKey} : existing seen key = .ok r ↔ seen key = some r := by
  unfold existing
  cases seen key <;> simp

end Decision

open Decision (Subject)

/-- What is decided: one command on one relation, and no deletion. -/
theorem BatchKind.decision_eq_ok {supply : Nat → Uuid} {l : Ledger} {drawn : Nat} {at_ : Instant}
    {seen : RelationKey → Option Relation} {kind : BatchKind} {request : kind.Request}
    {d : Decision} (h : kind.decision supply l drawn at_ seen request = .ok d) :
    Subject supply drawn seen (kind.key? request) d.relation d.drawn ∧
      ∃ command, d.relation.handle command = .ok d.events ∧ command.isDelete = false := by
  cases kind with
  | create tenant =>
    obtain ⟨_ | externalId, relationType, source, target⟩ := request
    · obtain ⟨hr, hn, hc⟩ := Decision.create_eq_ok h
      exact ⟨by rw [hr, hn]; exact .generated, hc⟩
    · dsimp only [decision] at h
      split at h
      · cases h
      · next hfree =>
        obtain ⟨hr, hn, hc⟩ := Decision.create_eq_ok h
        exact ⟨by rw [hr, hn]; exact .named hfree, hc⟩
  | upsert settings tenant =>
    dsimp only [decision] at h
    split at h
    · next existing hseen =>
      obtain ⟨hr, hn, hc⟩ := Decision.update_eq_ok h
      exact ⟨by rw [hr, hn]; exact .existing hseen, hc⟩
    · next hfree =>
      obtain ⟨hr, hn, hc⟩ := Decision.create_eq_ok h
      exact ⟨by rw [hr, hn]; exact .named hfree, hc⟩
  | update tenant =>
    obtain ⟨existing, hseen, h⟩ := Relation.bind_eq_ok.1 h
    obtain ⟨hr, hn, hc⟩ := Decision.update_eq_ok h
    exact ⟨by rw [hr, hn]; exact .existing (Decision.existing_eq_ok.1 hseen), hc⟩
  | output =>
    dsimp only [decision] at h
    split at h
    · cases h
    · obtain ⟨existing, hseen, h⟩ := Relation.bind_eq_ok.1 h
      obtain ⟨hr, hn, hc⟩ := Decision.give_eq_ok h
      exact ⟨by rw [hr, hn]; exact .existing (Decision.existing_eq_ok.1 hseen), _, hr ▸ hc, rfl⟩
  | report =>
    obtain ⟨existing, hseen, h⟩ := Relation.bind_eq_ok.1 h
    obtain ⟨hr, hn, hc⟩ := Decision.give_eq_ok h
    exact ⟨by rw [hr, hn]; exact .existing (Decision.existing_eq_ok.1 hseen), _, hr ▸ hc, rfl⟩

/-! ## No name is found taken -/

/-- The failure of a create that finds its name taken. -/
def RelationError.isTaken : RelationError → Bool
  | .alreadyExists _ => true
  | _ => false

theorem RelationError.isTaken_ofDomain (externalId : ExternalId) (e : DomainError) :
    (ofDomain externalId e).isTaken = false := by
  cases e <;> rfl

theorem Ledger.isTaken_of_resolve {l : Ledger} {tenant : TenantBpnl} {externalId : ExternalId}
    {missing : ExternalId → RelationError} {e : RelationError}
    (hmissing : (missing externalId).isTaken = false)
    (h : l.resolve tenant missing externalId = .error e) : e.isTaken = false := by
  unfold resolve only at h
  split at h
  · cases h
    exact hmissing
  · cases h
  · cases h
    rfl

theorem Ledger.isTaken_of_ends {l : Ledger} {tenant : TenantBpnl} {source target : ExternalId}
    {e : RelationError} (h : l.ends tenant source target = .error e) : e.isTaken = false := by
  unfold ends at h
  split at h
  · cases h
    rfl
  · rcases Relation.bind_eq_error.1 h with hsource | ⟨_, -, h⟩
    · exact isTaken_of_resolve rfl hsource
    · rcases Relation.bind_eq_error.1 h with htarget | ⟨_, -, h⟩
      · exact isTaken_of_resolve rfl htarget
      · cases h

namespace Decision

variable {l : Ledger} {at_ : Instant} {e : RelationError}

theorem isTaken_of_give {externalId : ExternalId} {r : Relation} {command : RelationCommand}
    {n : Nat} (h : give externalId r command n = .error e) : e.isTaken = false := by
  unfold give at h
  split at h
  · cases h
  · cases h
    exact RelationError.isTaken_ofDomain _ _

theorem isTaken_of_create {id : Uuid} {n : Nat} {tenant : TenantBpnl}
    {request : InputRelationUpsert} (h : create l at_ id n tenant request = .error e) :
    e.isTaken = false := by
  rcases Relation.bind_eq_error.1 h with hends | ⟨ends, -, h⟩
  · exact Ledger.isTaken_of_ends hends
  · exact isTaken_of_give h

theorem isTaken_of_update {r : Relation} {request : InputRelationUpsert}
    (h : update l at_ r request = .error e) : e.isTaken = false := by
  rcases Relation.bind_eq_error.1 h with hends | ⟨ends, -, h⟩
  · exact Ledger.isTaken_of_ends hends
  · exact isTaken_of_give h

end Decision

/-- An upsert does not fail on a name that is taken. -/
theorem BatchKind.isTaken_of_upsert {supply : Nat → Uuid} {l : Ledger} {drawn : Nat} {at_ : Instant}
    {seen : RelationKey → Option Relation} {settings : ServiceSettings} {tenant : TenantBpnl}
    {request : InputRelationUpsert} {e : RelationError}
    (h : (upsert settings tenant).decision supply l drawn at_ seen request = .error e) :
    e.isTaken = false := by
  dsimp only [decision] at h
  split at h
  · exact Decision.isTaken_of_update h
  · exact Decision.isTaken_of_create h

/-! ## Entries do what is decided -/

namespace Decision

/-- The unit of work after a decision was carried out. -/
def record (supply : Nat → Uuid) (d : Decision) (drawn : Nat) (u : UnitOfWork) : UnitOfWork :=
  u.record d.relation d.events
    (World.envelop supply d.relation (drawn + d.drawn) d.relation.version d.events)

/-- The decision, with more identifiers drawn before it. -/
def later (n : Nat) (d : Decision) : Decision := { d with drawn := d.drawn + n }

theorem map_later_give {externalId : ExternalId} {r : Relation} {command : RelationCommand}
    {n m : Nat} : (give externalId r command n).map (later m) = give externalId r command (n + m) := by
  unfold give
  cases r.handle command <;> rfl

theorem map_later_create {l : Ledger} {at_ : Instant} {id : Uuid} {tenant : TenantBpnl}
    {request : InputRelationUpsert} {n m : Nat} :
    (create l at_ id n tenant request).map (later m) = create l at_ id (n + m) tenant request := by
  unfold create
  cases l.ends tenant request.sourceExternalId request.targetExternalId with
  | error e => rfl
  | ok ends => exact map_later_give

end Decision

namespace Call

variable {supply : Nat → Uuid} {w w' : World} {at_ : Instant} {u : UnitOfWork} {α : Type}

/-- The call fails as decided, or carries the decision out. -/
def Decides (supply : Nat → Uuid) (c : Call (Relation × UnitOfWork)) (w : World) (u : UnitOfWork) :
    Except RelationError Decision → Prop
  | .error e => ∃ w', c.ComesTo supply w (.error e) w'
  | .ok d => c.ComesTo supply w (.ok (d.relation.applyAll d.events, d.record supply w.drawn u))
      (w.draw (d.drawn + d.events.length))

namespace Decides

variable {c : Call α} {f : α → Call (Relation × UnitOfWork)} {a : α}
  {decision : Except RelationError Decision}

theorem bind (hc : c.ComesTo supply w (.ok a) w) (hf : (f a).Decides supply w u decision) :
    (c >>= f).Decides supply w u decision := by
  rcases decision with e | d
  · obtain ⟨w', hf⟩ := hf
    exact ⟨w', ComesTo.bind hc hf⟩
  · exact ComesTo.bind hc hf

/-- After a part that leaves the world, the decision is made on its outcome. -/
theorem bind_inquiry {outcome : Except RelationError α} {g : α → Except RelationError Decision}
    (hc : c.ComesTo supply w outcome w) (hf : ∀ a, (f a).Decides supply w u (g a)) :
    (c >>= f).Decides supply w u (outcome >>= g) := by
  rcases outcome with e | a
  · exact ⟨w, ComesTo.bind_error hc⟩
  · exact bind hc (hf a)

/-- Identifiers that were drawn before count. -/
theorem bind_draw {n : Nat} (hc : c.ComesTo supply w (.ok a) (w.draw n))
    (hf : (f a).Decides supply (w.draw n) u decision) :
    (c >>= f).Decides supply w u (decision.map (Decision.later n)) := by
  rcases decision with e | d
  · obtain ⟨w', hf⟩ := hf
    exact ⟨w', ComesTo.bind hc hf⟩
  · have hcount : ∀ m, w.drawn + n + m = w.drawn + (m + n) := fun m => by omega
    have hf := ComesTo.bind hc hf
    rw [World.draw_draw, ← Nat.add_assoc, Nat.add_comm n, Decision.record, World.draw_drawn,
      hcount] at hf
    exact hf

/-- What is reported afterwards makes no difference. -/
theorem followed {c : Call (Relation × UnitOfWork)}
    {f : Relation × UnitOfWork → Call (Relation × UnitOfWork)} (hc : c.Decides supply w u decision)
    (hf : ∀ out w', (f out).ComesTo supply w' (.ok out) w') :
    (c >>= f).Decides supply w u decision := by
  rcases decision with e | d
  · obtain ⟨w', hc⟩ := hc
    exact ⟨w', ComesTo.bind_error hc⟩
  · exact ComesTo.bind hc (hf _ _)

end Decides

theorem comesTo_resolve {tenant : TenantBpnl} {missing : ExternalId → RelationError}
    {externalId : ExternalId} : (Service.resolve tenant missing externalId).ComesTo supply w
      (w.ledger.resolve tenant missing externalId) w := by
  have hasked : (Query.ask (.partnerRecords tenant externalId)).ComesTo supply w
      (.ok (w.ledger.ofPartner tenant externalId)) w := ⟨rfl, rfl, rfl⟩
  have hlookup : (Service.lookup tenant externalId).ComesTo supply w
      (Ledger.only tenant externalId (w.ledger.ofPartner tenant externalId)) w := by
    refine hasked.bind ?_
    dsimp only
    cases Ledger.only tenant externalId (w.ledger.ofPartner tenant externalId) with
    | ok found => exact Program.comesTo_done _
    | error e => exact ⟨rfl, rfl, rfl⟩
  refine (comesTo_orFail hlookup).bind_inquiry ?_
  intro found
  cases found with
  | some record => exact comesTo_pure _
  | none => exact comesTo_throw _

theorem comesTo_resolveEnds {tenant : TenantBpnl} {source target : ExternalId} :
    (Service.resolveEnds tenant source target).ComesTo supply w
      (w.ledger.ends tenant source target) w := by
  unfold Service.resolveEnds Service.ensureDistinct Ledger.ends
  split
  · exact (comesTo_throw _).bind_error
  · exact (comesTo_pure ()).bind (comesTo_resolve.bind_inquiry fun _ =>
      comesTo_resolve.bind_inquiry fun _ => comesTo_pure _)

/-- A command, and what is reported of it. -/
theorem decides_execute {externalId : ExternalId} {r : Relation} {command : RelationCommand} :
    (execute u externalId r command).Decides supply w u (Decision.give externalId r command 0) := by
  unfold Decision.give
  cases h : r.handle command with
  | error e => exact ⟨w, comesTo_execute_error h⟩
  | ok es =>
    have hok : (execute u externalId r command).ComesTo supply w _ _ := comesTo_execute_ok h
    show ComesTo _ _ _ _ (w.draw (0 + es.length))
    rw [Nat.zero_add]
    exact hok

theorem decides_createEntry {tenant : TenantBpnl} {request : InputRelationUpsert} :
    (Service.createEntry tenant at_ u request).Decides supply w u
      (Decision.create w.ledger at_ (supply w.drawn) 1 tenant request) := by
  refine .bind_inquiry comesTo_resolveEnds ?_
  intro ends
  show Decides supply _ w u (Decision.give _ _ _ (0 + 1))
  rw [← Decision.map_later_give]
  exact .bind_draw (comesTo_freshId _) (.followed decides_execute fun out w' =>
    (comesTo_log _).bind (comesTo_pure _))

theorem decides_updateEntry {existing : Relation} {request : InputRelationUpsert} :
    (Service.updateEntry existing at_ u request).Decides supply w u
      (Decision.update w.ledger at_ existing request) := by
  refine .bind_inquiry comesTo_resolveEnds fun ends => .followed decides_execute fun out w' => ?_
  dsimp only
  split
  · exact (comesTo_log _).bind (comesTo_pure _)
  · exact (comesTo_pure _).bind (comesTo_pure _)

/-- What is done with a relation that has to be there. -/
theorem decides_onExisting {key : RelationKey}
    {f : Relation × UnitOfWork → Call (Relation × UnitOfWork)}
    {g : Relation → Except RelationError Decision}
    (hf : ∀ r, (f (r, u.reach w.tables key)).Decides supply w (u.reach w.tables key) (g r)) :
    (loadExisting u key >>= f).Decides supply w (u.reach w.tables key)
      (Decision.existing (u.seen w.tables) key >>= g) := by
  have hload : (load u key).ComesTo supply w _ w := comesTo_load u key
  unfold Decision.existing
  cases hseen : u.seen w.tables key with
  | some r =>
    rw [hseen] at hload
    exact .bind (hload.bind (comesTo_pure _)) (hf r)
  | none =>
    rw [hseen] at hload
    exact ⟨w, (hload.bind (comesTo_throw _)).bind_error⟩

theorem decides_newEntry {tenant : TenantBpnl} {request : NewInputRelation} :
    (Service.newEntry tenant at_ u request).Decides supply w
      (((BatchKind.create tenant).key? request).elim u (u.reach w.tables))
      ((BatchKind.create tenant).decision supply w.ledger w.drawn at_ (u.seen w.tables) request) := by
  obtain ⟨_ | externalId, relationType, source, target⟩ := request
  · show Decides supply _ w u (Decision.create _ _ _ (1 + 1) _ _)
    rw [← Decision.map_later_create]
    exact .bind_draw (comesTo_freshId _) (.bind (comesTo_pure _) decides_createEntry)
  · have hload : (load u ⟨tenant, externalId⟩).ComesTo supply w _ w := comesTo_load u _
    dsimp only [BatchKind.decision]
    cases hseen : u.seen w.tables ⟨tenant, externalId⟩ with
    | some r =>
      rw [hseen] at hload
      exact .bind hload ⟨w, (comesTo_throw _).bind_error⟩
    | none =>
      rw [hseen] at hload
      exact .bind hload (.bind (comesTo_pure _) decides_createEntry)

theorem decides_upsertEntry {tenant : TenantBpnl} {request : InputRelationUpsert}
    {settings : ServiceSettings} :
    (Service.upsertEntry tenant at_ u request).Decides supply w
      (u.reach w.tables ⟨tenant, request.externalId⟩)
      ((BatchKind.upsert settings tenant).decision supply w.ledger w.drawn at_ (u.seen w.tables)
        request) := by
  have hload : (load u ⟨tenant, request.externalId⟩).ComesTo supply w _ w := comesTo_load u _
  dsimp only [BatchKind.decision]
  cases hseen : u.seen w.tables ⟨tenant, request.externalId⟩ with
  | some r =>
    rw [hseen] at hload
    exact .bind hload decides_updateEntry
  | none =>
    rw [hseen] at hload
    exact .bind hload decides_createEntry

theorem decides_outputEntry {request : OutputRelationUpsert} :
    (Service.outputEntry at_ u request).Decides supply w
      (u.reach w.tables ⟨request.tenant, request.externalId⟩)
      (BatchKind.output.decision supply w.ledger w.drawn at_ (u.seen w.tables) request) := by
  unfold Service.outputEntry
  dsimp only [BatchKind.decision]
  split
  · exact ⟨w, (comesTo_throw _).bind_error⟩
  · exact decides_onExisting fun r => decides_execute

end Call

/-- With nobody else at work, an entry does what is decided by what it can see. -/
theorem entry_decides {supply : Nat → Uuid} {w : World} {at_ : Instant} {u : UnitOfWork}
    (kind : BatchKind) (request : kind.Request) :
    (kind.entry at_ u request).Decides supply w ((kind.key? request).elim u (u.reach w.tables))
      (kind.decision supply w.ledger w.drawn at_ (u.seen w.tables) request) := by
  cases kind with
  | create tenant => exact Call.decides_newEntry
  | upsert settings tenant => exact Call.decides_upsertEntry
  | update tenant => exact Call.decides_onExisting fun r => Call.decides_updateEntry
  | output => exact Call.decides_outputEntry
  | report => exact Call.decides_onExisting fun r => Call.decides_execute

end PartnerRelations
