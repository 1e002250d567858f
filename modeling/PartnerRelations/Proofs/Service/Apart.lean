/-
# `Proofs.Service.Apart` — entries with names of their own

The entries of a batch share one unit of work, and an entry may meet what one before it has
done.  It meets it under the name that it looks up, and nowhere else: what an entry comes to
depends on what is seen under that name only (`decision_congr`).  Where no name is looked up
twice, each entry is therefore decided by what the store has, whatever the others do.

    decideEach     the decisions of all entries by what is seen at first, without any unit
                   of work; they depend on each other by the count of identifiers only
    overlayAll     what is seen after them
    envelopAll     their events in envelopes

The entries of a batch do in one unit of work what `decideEach` says (`run_handleEach`).  A
call fails with the first failure among the decisions (`apart_error`), or commits all of them
(`apart_ok`).

An entry that amends what is there draws no identifier for a relation, and is decided alike
whatever is drawn before it (`Amends.decision_eq`).  A batch of such entries needs no
identifier to be fresh.
-/
import PartnerRelations.Proofs.Service.Single

namespace PartnerRelations

open Decision (Subject)

/-! ## What an entry depends on -/

namespace BatchKind

variable {supply supply' : Nat → Uuid} {l : Ledger} {drawn drawn' : Nat} {at_ : Instant}
  {seen seen' : RelationKey → Option Relation} {kind : BatchKind} {request : kind.Request}
  {requests : List kind.Request} {d : Decision} {ds : List Decision}

/-- An entry is decided by what is seen under the name that it looks up. -/
theorem decision_congr (h : ∀ key ∈ kind.key? request, seen key = seen' key) :
    kind.decision supply l drawn at_ seen request =
      kind.decision supply l drawn at_ seen' request := by
  cases kind with
  | create tenant =>
    obtain ⟨_ | externalId, relationType, source, target⟩ := request
    · rfl
    · simp only [decision, h ⟨tenant, externalId⟩ rfl]
  | upsert settings tenant => simp only [decision, h ⟨tenant, request.externalId⟩ rfl]
  | update tenant =>
    simp only [decision, Decision.existing, h ⟨tenant, request.externalId⟩ rfl]
  | output =>
    simp only [decision, Decision.existing, h ⟨request.tenant, request.externalId⟩ rfl]
  | report =>
    simp only [decision, Decision.existing, h ⟨request.tenant, request.externalId⟩ rfl]

/-- The calls that may create relations. -/
def creates : BatchKind → Bool
  | .create _ => true
  | .upsert _ _ => true
  | .update _ => false
  | .output => false
  | .report => false

/-- The entry creates no relation: its kind creates none, or the name is taken. -/
def Amends (kind : BatchKind) (seen : RelationKey → Option Relation) (request : kind.Request) :
    Prop :=
  kind.creates = false ∨ ∃ key ∈ kind.key? request, (seen key).isSome = true

/-- Such an entry is decided alike whatever identifiers are drawn. -/
theorem Amends.decision_eq (h : kind.Amends seen request) :
    kind.decision supply l drawn at_ seen request =
      kind.decision supply' l drawn' at_ seen request := by
  cases kind with
  | create tenant =>
    obtain hcreates | ⟨key, hkey, hseen⟩ := h
    · cases hcreates
    · obtain ⟨_ | externalId, relationType, source, target⟩ := request
      · cases hkey
      · cases hkey
        obtain ⟨r, hr⟩ := Option.isSome_iff_exists.1 hseen
        simp only [decision, hr]
  | upsert settings tenant =>
    obtain hcreates | ⟨key, hkey, hseen⟩ := h
    · cases hcreates
    · cases hkey
      obtain ⟨r, hr⟩ := Option.isSome_iff_exists.1 hseen
      simp only [decision, hr]
  | update tenant => rfl
  | output => rfl
  | report => rfl

/-- Such an entry is about the relation that is seen under its name, and draws nothing
before it. -/
theorem Amends.existing (h : kind.Amends seen request)
    (hd : kind.decision supply l drawn at_ seen request = .ok d) :
    (∃ key ∈ kind.key? request, seen key = some d.relation) ∧ d.drawn = 0 := by
  obtain hcreates | ⟨key, hkey, hseen⟩ := h
  · cases kind with
    | create tenant => cases hcreates
    | upsert settings tenant => cases hcreates
    | update tenant =>
      obtain ⟨existing, hseen, hd⟩ := Relation.bind_eq_ok.1 hd
      obtain ⟨hr, hn, -⟩ := Decision.update_eq_ok hd
      exact ⟨⟨_, rfl, hr ▸ Decision.existing_eq_ok.1 hseen⟩, hn⟩
    | output =>
      dsimp only [decision] at hd
      split at hd
      · cases hd
      · obtain ⟨existing, hseen, hd⟩ := Relation.bind_eq_ok.1 hd
        obtain ⟨hr, hn, -⟩ := Decision.give_eq_ok hd
        exact ⟨⟨_, rfl, hr ▸ Decision.existing_eq_ok.1 hseen⟩, hn⟩
    | report =>
      obtain ⟨existing, hseen, hd⟩ := Relation.bind_eq_ok.1 hd
      obtain ⟨hr, hn, -⟩ := Decision.give_eq_ok hd
      exact ⟨⟨_, rfl, hr ▸ Decision.existing_eq_ok.1 hseen⟩, hn⟩
  · obtain ⟨hsubject, -⟩ := decision_eq_ok hd
    obtain ⟨r, es, n⟩ := d
    rw [Option.mem_def.1 hkey] at hsubject ⊢
    cases hsubject with
    | existing hr => exact ⟨⟨key, rfl, hr⟩, rfl⟩
    | named hfree =>
      rw [hfree] at hseen
      cases hseen

end BatchKind

/-! ## Decisions of a whole batch -/

namespace Decision

variable {supply : Nat → Uuid} {drawn : Nat} {seen : RelationKey → Option Relation}
  {d : Decision} {ds ds' : List Decision} {key : RelationKey}

/-- The relation that comes of a decision. -/
def result (d : Decision) : Relation := d.relation.applyAll d.events

/-- How many identifiers it takes to carry a decision out. -/
def takes (d : Decision) : Nat := d.drawn + d.events.length

/-- How many identifiers it takes to carry decisions out. -/
def takesAll (ds : List Decision) : Nat := (ds.map takes).sum

/-- What is seen after decisions were carried out. -/
def overlayAll (ds : List Decision) (seen : RelationKey → Option Relation) :
    RelationKey → Option Relation :=
  ds.foldl (fun seen d => d.overlay seen) seen

/-- The events of decisions in envelopes, if identifiers are drawn from `drawn` on. -/
def envelopAll (supply : Nat → Uuid) : (drawn : Nat) → List Decision → List RelationEnvelope
  | _, [] => []
  | drawn, d :: ds =>
    World.envelop supply d.relation (drawn + d.drawn) d.relation.version d.events ++
      envelopAll supply (drawn + d.takes) ds

theorem overlay_eq : d.overlay seen d.relation.key = some d.result := if_pos rfl

/-- Names that no decision is about show what they did. -/
theorem overlayAll_of_forall_ne (h : ∀ d ∈ ds, d.relation.key ≠ key) :
    overlayAll ds seen key = seen key := by
  induction ds generalizing seen with
  | nil => rfl
  | cons d ds ih =>
    refine (ih fun d' hd' => h d' (List.mem_cons_of_mem _ hd')).trans (if_neg ?_)
    exact (h d (List.mem_cons_self ..)).symm

/-- Each decision shows under its name, if no two are about one name. -/
theorem overlayAll_of_mem (hkeys : (ds.map (·.relation.key)).Nodup) (hd : d ∈ ds) :
    overlayAll ds seen d.relation.key = some d.result := by
  induction ds generalizing seen with
  | nil => cases hd
  | cons d' ds ih =>
    obtain ⟨hnew, hkeys⟩ := List.nodup_cons.1 hkeys
    rcases List.mem_cons.1 hd with rfl | hd
    · have hlater : overlayAll ds (d.overlay seen) d.relation.key = d.overlay seen d.relation.key :=
        overlayAll_of_forall_ne fun d' hd' hkey => hnew (List.mem_map.2 ⟨d', hd', hkey⟩)
      exact hlater.trans overlay_eq
    · exact ih hkeys hd

/-- The order of decisions about different names makes no difference to what is seen. -/
theorem overlayAll_perm (hkeys : (ds.map (·.relation.key)).Nodup) (h : ds'.Perm ds) :
    overlayAll ds' seen = overlayAll ds seen := by
  funext key
  by_cases hkey : ∃ d ∈ ds, d.relation.key = key
  · obtain ⟨d, hd, rfl⟩ := hkey
    have hkeys' := (h.map (·.relation.key)).nodup_iff.2 hkeys
    rw [overlayAll_of_mem hkeys' (h.mem_iff.2 hd), overlayAll_of_mem hkeys hd]
  · have hne : ∀ d ∈ ds, d.relation.key ≠ key := fun d hd hk => hkey ⟨d, hd, hk⟩
    rw [overlayAll_of_forall_ne fun d hd => hne d (h.mem_iff.1 hd), overlayAll_of_forall_ne hne]

end Decision

namespace BatchKind

variable {supply supply' : Nat → Uuid} {l : Ledger} {drawn drawn' : Nat} {at_ : Instant}
  {seen seen' : RelationKey → Option Relation} {kind : BatchKind} {request : kind.Request}
  {requests : List kind.Request} {d : Decision} {ds : List Decision}

/-- What the entries of a batch come to, each by what is seen at first. -/
def decideEach (supply : Nat → Uuid) (l : Ledger) (at_ : Instant)
    (seen : RelationKey → Option Relation) (kind : BatchKind) :
    (drawn : Nat) → List kind.Request → Except RelationError (List Decision)
  | _, [] => return []
  | drawn, request :: rest => do
    let d ← kind.decision supply l drawn at_ seen request
    let ds ← decideEach supply l at_ seen kind (drawn + d.takes) rest
    return d :: ds

theorem decideEach_cons_eq_ok {rest : List kind.Request} :
    decideEach supply l at_ seen kind drawn (request :: rest) = .ok ds ↔
      ∃ d ds', kind.decision supply l drawn at_ seen request = .ok d ∧
        decideEach supply l at_ seen kind (drawn + d.takes) rest = .ok ds' ∧ ds = d :: ds' := by
  simp only [decideEach, Relation.bind_eq_ok, Relation.pure_eq_ok, exists_and_left]

/-- Every entry has a name to look up, and no two have the same. -/
structure Apart (kind : BatchKind) (requests : List kind.Request) : Prop where
  keyed : ∀ request ∈ requests, (kind.key? request).isSome = true
  distinct : (requests.map kind.key?).Nodup

/-- A decision is about the name that the entry looks up. -/
theorem key?_of_decision (hkey : ∀ key r, seen key = some r → r.key = key)
    (hkeyed : (kind.key? request).isSome = true)
    (h : kind.decision supply l drawn at_ seen request = .ok d) :
    kind.key? request = some d.relation.key := by
  obtain ⟨key, hkeyed⟩ := Option.isSome_iff_exists.1 hkeyed
  obtain ⟨hsubject, -⟩ := decision_eq_ok h
  obtain ⟨r, es, n⟩ := d
  rw [hkeyed] at hsubject ⊢
  cases hsubject with
  | existing hr => exact congrArg some (hkey key r hr).symm
  | named => rfl

/-- The decisions are about the names that the entries look up. -/
theorem keys_decideEach (hkey : ∀ key r, seen key = some r → r.key = key)
    (hkeyed : ∀ request ∈ requests, (kind.key? request).isSome = true)
    (h : decideEach supply l at_ seen kind drawn requests = .ok ds) :
    requests.map kind.key? = ds.map fun d => some d.relation.key := by
  induction requests generalizing drawn ds with
  | nil =>
    cases h
    rfl
  | cons request rest ih =>
    obtain ⟨d, ds, hd, hrest, rfl⟩ := decideEach_cons_eq_ok.1 h
    obtain ⟨hfirst, hkeyed⟩ := List.forall_mem_cons.1 hkeyed
    rw [List.map_cons, List.map_cons, ih hkeyed hrest, key?_of_decision hkey hfirst hd]

/-- No two decisions are about one name. -/
theorem Apart.nodup_keys (hapart : kind.Apart requests)
    (hkey : ∀ key r, seen key = some r → r.key = key)
    (h : decideEach supply l at_ seen kind drawn requests = .ok ds) :
    (ds.map (·.relation.key)).Nodup := by
  have hdistinct := hapart.distinct
  rw [keys_decideEach hkey hapart.keyed h, ← Function.comp_def some, ← List.map_map] at hdistinct
  exact hdistinct.of_map

/-- Entries that amend are decided alike in whatever order they come. -/
theorem decideEach_eq_ok_iff (h : ∀ request ∈ requests, kind.Amends seen request) :
    decideEach supply l at_ seen kind drawn requests = .ok ds ↔
      requests.map (kind.decision supply' l drawn' at_ seen) = ds.map .ok := by
  induction requests generalizing drawn ds with
  | nil =>
    rw [decideEach, Relation.pure_eq_ok, List.map_nil, List.nil_eq, List.map_eq_nil_iff]
  | cons request rest ih =>
    obtain ⟨hfirst, hrest⟩ := List.forall_mem_cons.1 h
    rw [decideEach_cons_eq_ok, List.map_cons, eq_comm, List.map_eq_cons_iff]
    constructor
    · rintro ⟨d, ds, hd, hds, rfl⟩
      exact ⟨d, ds, rfl, (hfirst.decision_eq ▸ hd).symm, ((ih hrest).1 hds).symm⟩
    · rintro ⟨d, ds, rfl, hd, hds⟩
      exact ⟨d, ds, hfirst.decision_eq ▸ hd.symm, (ih hrest).2 hds.symm, rfl⟩

end BatchKind

/-! ## Carrying decisions out -/

namespace UnitOfWork

variable {u : UnitOfWork} {t : Tables}

/-- The unit of work after decisions were carried out. -/
structure After (u' : UnitOfWork) (t : Tables) (u : UnitOfWork) (supply : Nat → Uuid)
    (drawn : Nat) (ds : List Decision) : Prop where
  upright : u'.Upright t
  seen : u'.seen t = Decision.overlayAll ds (u.seen t)
  events : u'.events = u.events ++ Decision.envelopAll supply drawn ds
  clean : u.Clean → (∀ d ∈ ds, d.events = []) → u'.Clean

theorem After.refl {supply : Nat → Uuid} {drawn : Nat} (h : u.Upright t) :
    u.After t u supply drawn [] :=
  ⟨h, rfl, (List.append_nil _).symm, fun hclean _ => hclean⟩

theorem After.cons {supply : Nat → Uuid} {drawn : Nat} {u₁ u₂ : UnitOfWork} {d : Decision}
    {ds : List Decision} (h : u₁.After t u supply drawn [d])
    (h' : u₂.After t u₁ supply (drawn + d.takes) ds) : u₂.After t u supply drawn (d :: ds) where
  upright := h'.upright
  seen := by
    rw [h'.seen, h.seen]
    rfl
  events := by
    rw [h'.events, h.events, List.append_assoc]
    simp only [Decision.envelopAll, List.append_nil]
  clean hclean hnone := by
    obtain ⟨hfirst, hrest⟩ := List.forall_mem_cons.1 hnone
    exact h'.clean (h.clean hclean (List.forall_mem_singleton.2 hfirst)) hrest

/-- Carrying one decision out.  It needs no fresh identifier if it draws none. -/
theorem Upright.after_decided {supply : Nat → Uuid} {named : List ExternalId} {drawn upto : Nat}
    {d : Decision} {key? : Option RelationKey} {command : RelationCommand} (h : u.Upright t)
    (hs : t.Sound) (hl : t.Live)
    (hsupply : d.drawn = 0 ∨ Fresh supply named drawn upto (u.seen t) ∧ drawn + d.drawn ≤ upto)
    (hsubject : Subject supply drawn (u.seen t) key? d.relation d.drawn)
    (hc : d.relation.handle command = .ok d.events) (hd : command.isDelete = false) :
    (d.record supply drawn (key?.elim u (u.reach t))).After t u supply drawn [d] where
  upright := by
    obtain hnone | ⟨hfresh, hupto⟩ := hsupply
    · exact h.decided hs hl (.none supply drawn (u.seen t)) (by omega) hsubject hc hd
    · exact h.decided hs hl hfresh hupto hsubject hc hd
  seen := funext fun key => seen_decided hs hl hc hd (h.deleted_eq_false hl hsubject) key
  events := by
    rw [events_decided, Decision.envelopAll, Decision.envelopAll, List.append_nil]
  clean hclean hnone := by
    rw [Decision.record, hnone d (List.mem_singleton_self d)]
    cases key? with
    | none => exact hclean.record _ _
    | some key => exact (hclean.reach key).record _ _

end UnitOfWork

namespace BatchKind

variable {supply : Nat → Uuid} {named : List ExternalId} {upto : Nat} {at_ : Instant}
  {seen : RelationKey → Option Relation} {kind : BatchKind} {requests : List kind.Request}
  {w : World} {u : UnitOfWork}

/-- The entries have the identifiers that they need for relations: none, or fresh ones up to
the end of the batch. -/
def Supplied (kind : BatchKind) (supply : Nat → Uuid) (named : List ExternalId) (upto : Nat)
    (at_ : Instant) (seen : RelationKey → Option Relation) (w : World) (u : UnitOfWork)
    (requests : List kind.Request) : Prop :=
  (∀ request ∈ requests, kind.Amends seen request) ∨
    Fresh supply named w.drawn upto (u.seen w.tables) ∧
      (∀ request ∈ requests, ∀ name ∈ kind.named request, name ∈ named) ∧
      (World.run supply (Call.handleEach kind.entry at_ u requests).run w).2.drawn ≤ upto

namespace Supplied

variable {request : kind.Request} {rest : List kind.Request} {d : Decision} {u₁ : UnitOfWork}

/-- What the first entry needs. -/
theorem first (h : kind.Supplied supply named upto at_ seen w u (request :: rest))
    (hd : kind.decision supply w.ledger w.drawn at_ seen request = .ok d)
    (hone : (kind.entry at_ u request).ComesTo supply w (.ok (d.result, u₁)) (w.draw d.takes)) :
    d.drawn = 0 ∨ Fresh supply named w.drawn upto (u.seen w.tables) ∧ w.drawn + d.drawn ≤ upto := by
  obtain hamends | ⟨hfresh, -, hupto⟩ := h
  · exact .inl ((hamends request (List.mem_cons_self ..)).existing hd).2
  · rw [Call.handleEach, hone.drawn_bind] at hupto
    refine .inr ⟨hfresh, Nat.le_trans ?_ (Nat.le_trans (World.drawn_run _) hupto)⟩
    exact Nat.add_le_add_left (Nat.le_add_right ..) _

/-- What the other entries need after it. -/
theorem others (h : kind.Supplied supply named upto at_ seen w u (request :: rest))
    (hs : w.tables.Sound)
    (hsubject : Subject supply w.drawn (u.seen w.tables) (kind.key? request) d.relation d.drawn)
    (hone : (kind.entry at_ u request).ComesTo supply w (.ok (d.result, u₁)) (w.draw d.takes))
    (hseen : u₁.seen w.tables = d.overlay (u.seen w.tables)) :
    kind.Supplied supply named upto at_ seen (w.draw d.takes) u₁ rest := by
  obtain hamends | ⟨hfresh, hnamed, hupto⟩ := h
  · exact .inl (List.forall_mem_cons.1 hamends).2
  · obtain ⟨hfirst, hrest⟩ := List.forall_mem_cons.1 hnamed
    rw [Call.handleEach, hone.drawn_bind] at hupto
    refine .inr ⟨?_, hrest, Nat.le_trans World.drawn_bind hupto⟩
    rw [World.draw_tables, hseen]
    exact hfresh.decided hsubject (fun key r => UnitOfWork.key_of_seen hs)
      (fun key hlooked => hfirst _ (mem_named_of_key? hlooked))
      (Nat.add_le_add_left (Nat.le_add_right ..) _)

end Supplied

/-- The entries fail as decided, or carry the decisions out. -/
def CarriesOut (kind : BatchKind) (supply : Nat → Uuid) (at_ : Instant) (w : World)
    (u : UnitOfWork) (requests : List kind.Request) : Except RelationError (List Decision) → Prop
  | .error e => ∃ w', (Call.handleEach kind.entry at_ u requests).ComesTo supply w (.error e) w'
  | .ok ds => ∃ u', (Call.handleEach kind.entry at_ u requests).ComesTo supply w
      (.ok (ds.map Decision.result, u')) (w.draw (Decision.takesAll ds)) ∧
        u'.After w.tables u supply w.drawn ds

theorem CarriesOut.cons {request : kind.Request} {rest : List kind.Request} {d : Decision}
    {u₁ : UnitOfWork} {decided : Except RelationError (List Decision)}
    (hone : (kind.entry at_ u request).ComesTo supply w (.ok (d.result, u₁)) (w.draw d.takes))
    (hafter : u₁.After w.tables u supply w.drawn [d])
    (hrest : kind.CarriesOut supply at_ (w.draw d.takes) u₁ rest decided) :
    kind.CarriesOut supply at_ w u (request :: rest) (decided.map (d :: ·)) := by
  rcases decided with e | ds
  · obtain ⟨w', hrest⟩ := hrest
    exact ⟨w', hone.bind hrest.bind_error⟩
  · obtain ⟨u', hrest, hafter'⟩ := hrest
    rw [World.draw_draw] at hrest
    exact ⟨u', hone.bind (hrest.bind (Call.comesTo_pure _)), hafter.cons hafter'⟩

/-- With names of their own, the entries of a batch do what is decided by what is seen at
first. -/
theorem run_handleEach (hs : w.tables.Sound) (hl : w.tables.Live) (h : u.Upright w.tables)
    (hapart : kind.Apart requests)
    (hseen : ∀ request ∈ requests, ∀ key ∈ kind.key? request, u.seen w.tables key = seen key)
    (hsupplied : kind.Supplied supply named upto at_ seen w u requests) :
    kind.CarriesOut supply at_ w u requests
      (decideEach supply w.ledger at_ seen kind w.drawn requests) := by
  induction requests generalizing w u with
  | nil => exact ⟨u, Call.comesTo_pure _, .refl h⟩
  | cons request rest ih =>
    obtain ⟨hkeyed, hkeyedRest⟩ := List.forall_mem_cons.1 hapart.keyed
    obtain ⟨hnew, hdistinct⟩ := List.nodup_cons.1 hapart.distinct
    obtain ⟨hseenFirst, hseenRest⟩ := List.forall_mem_cons.1 hseen
    -- the first entry sees under its name what was seen at first
    have hsame : kind.decision supply w.ledger w.drawn at_ (u.seen w.tables) request =
      kind.decision supply w.ledger w.drawn at_ seen request := decision_congr hseenFirst
    have hentry : (kind.entry at_ u request).Decides supply w _
        (kind.decision supply w.ledger w.drawn at_ (u.seen w.tables) request) :=
      entry_decides kind request
    rw [decideEach]
    cases hd : kind.decision supply w.ledger w.drawn at_ seen request with
    | error e =>
      rw [hsame, hd] at hentry
      obtain ⟨w', hentry⟩ := hentry
      exact ⟨w', hentry.bind_error⟩
    | ok d =>
      rw [hsame, hd] at hentry
      obtain ⟨hsubject, command, hc, hdelete⟩ := decision_eq_ok (hsame.trans hd)
      have hkey : kind.key? request = some d.relation.key :=
        key?_of_decision (fun key r => UnitOfWork.key_of_seen hs) hkeyed (hsame.trans hd)
      have hone : (kind.entry at_ u request).ComesTo supply w (.ok (d.result, _))
        (w.draw d.takes) := hentry
      have hafter := h.after_decided hs hl (hsupplied.first hd hone) hsubject hc hdelete
      generalize d.record supply w.drawn ((kind.key? request).elim u (u.reach w.tables)) = u₁
        at hone hafter
      have hoverlay : u₁.seen w.tables = d.overlay (u.seen w.tables) := hafter.seen
      -- the others look up other names
      have hothers : ∀ other ∈ rest, ∀ key ∈ kind.key? other, u₁.seen w.tables key = seen key := by
        intro other hother key hlooked
        rw [hoverlay, Decision.overlay, if_neg, hseenRest other hother key hlooked]
        rintro rfl
        exact hnew (hkey ▸ List.mem_map.2 ⟨other, hother, hlooked⟩)
      exact .cons hone hafter (@ih (w.draw d.takes) u₁ hs hl hafter.upright
        ⟨hkeyedRest, hdistinct⟩ hothers (hsupplied.others hs hsubject hone hoverlay))

/-! ## Calls -/

/-- A batch fails with the failure of one of its entries. -/
theorem exists_decision_eq_error {l : Ledger} {drawn : Nat} {e : RelationError}
    (h : decideEach supply l at_ seen kind drawn requests = .error e) :
    ∃ request ∈ requests, ∃ n, kind.decision supply l n at_ seen request = .error e := by
  induction requests generalizing drawn with
  | nil => cases h
  | cons request rest ih =>
    rcases Relation.bind_eq_error.1 h with hd | ⟨d, hd, h⟩
    · exact ⟨request, List.mem_cons_self .., drawn, hd⟩
    · rcases Relation.bind_eq_error.1 h with hds | ⟨ds, hds, h⟩
      · obtain ⟨other, hother, n, he⟩ := ih hds
        exact ⟨other, List.mem_cons_of_mem _ hother, n, he⟩
      · cases h

/-- What a call that commits decisions has done: it returns what comes of them, the store
shows them, and their events were published. -/
structure Committed (kind : BatchKind) (supply : Nat → Uuid) (requests : List kind.Request)
    (w : World) (ds : List Decision) : Prop where
  value : (World.run supply (kind.call requests).run w).1 = .ok (ds.map Decision.result)
  sound : (World.run supply (kind.call requests).run w).2.tables.Sound
  live : (World.run supply (kind.call requests).run w).2.tables.Live
  shown : (World.run supply (kind.call requests).run w).2.tables.find? =
    Decision.overlayAll ds w.tables.find?
  told : published (World.exchanges supply (kind.call requests).run w) =
    Decision.envelopAll supply w.drawn ds

section Calls

variable (hs : w.tables.Sound) (hl : w.tables.Live) (hapart : kind.Apart requests)
  (hsupply : (∀ request ∈ requests, kind.Amends w.tables.find? request) ∨
    Fresh supply (requests.filterMap kind.named) w.drawn
      (World.run supply (kind.call requests).run w).2.drawn w.tables.find?)

include hs hl hapart hsupply

/-- The entries of a call do what is decided by what the store has. -/
theorem carriesOut_empty : kind.CarriesOut supply w.clock w .empty requests
    (decideEach supply w.ledger w.clock w.tables.find? kind w.drawn requests) := by
  refine run_handleEach hs hl (UnitOfWork.upright_empty w.tables) hapart (fun _ _ _ _ => rfl)
    (hsupply.imp_right fun hfresh => ⟨hfresh, ?_, drawn_handleEach_le⟩)
  exact fun request hrequest name hname => List.mem_filterMap.2 ⟨request, hrequest, hname⟩

/-- The call fails with the failure that was decided. -/
theorem apart_error {e : RelationError}
    (h : decideEach supply w.ledger w.clock w.tables.find? kind w.drawn requests = .error e) :
    (World.run supply (kind.call requests).run w).1 = .error e := by
  have hrun := carriesOut_empty hs hl hapart hsupply
  rw [h] at hrun
  obtain ⟨w', hrun⟩ := hrun
  refine (call_comesTo (Call.comesTo_batch_error hrun) ?_).value
  intro e' he'
  cases he'
  obtain ⟨request, -, n, hd⟩ := exists_decision_eq_error h
  exact isTaken_of_decision hd

/-- The call commits what was decided in one piece. -/
theorem apart_ok {ds : List Decision}
    (h : decideEach supply w.ledger w.clock w.tables.find? kind w.drawn requests = .ok ds) :
    kind.Committed supply requests w ds := by
  have hrun := carriesOut_empty hs hl hapart hsupply
  rw [h] at hrun
  obtain ⟨u, hrun, hafter⟩ := hrun
  obtain ⟨t, hcommit, hsound, hfind⟩ := hafter.upright.fits.commit_of_kept hs hafter.upright.kept
  have hcall := call_comesTo (Call.comesTo_batch_ok hrun hcommit) fun e he => nomatch he
  obtain ⟨htables, -, hpublished⟩ := hcall.leaves
  have hlive : t.Live := by
    intro key r hr
    exact hafter.upright.present_of_seen hl ((hfind key).symm.trans hr)
  rw [World.published_run, hafter.events] at hpublished
  exact
    { value := hcall.value
      sound := by rwa [htables]
      live := by rwa [htables]
      shown := by
        rw [htables]
        exact (funext hfind).trans hafter.seen
      told := List.append_cancel_left hpublished }

end Calls

end BatchKind

end PartnerRelations
