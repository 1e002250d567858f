/-
# `Proofs.Service.Permuted` — a batch in another order

Updates, outputs and error reports are about relations that are there.  If no two entries of
a batch are about the same one, the order of the entries makes no difference
(`permuted_batch_alike`):

    the outcome     in every order or in none the batch succeeds
    the relations   each entry returns the same one
    the store       is the same
    the bus         has the same of each relation, sequence numbers included; the order
                    among relations and the identifiers of the envelopes are free

The decisions of the entries are a list that is permuted with the entries
(`decideEach_perm`), so what is left to see is that neither what they show
(`Decision.overlayAll_perm`) nor what they tell of one relation (`newsOf_perm`) depends on
its order.
-/
import PartnerRelations.Proofs.Service.Apart
import PartnerRelations.Proofs.Concurrent.Replay

namespace PartnerRelations

/-! ## What is told of one relation -/

/-- An envelope without its own identifier. -/
def unmarked (envelope : RelationEnvelope) : RelationEnvelope :=
  { envelope with eventId := .ofNat 0 }

/-- What envelopes tell of a relation, in order, whatever their own identifiers are. -/
def newsOf (id : RelationId) (envelopes : List RelationEnvelope) : List RelationEnvelope :=
  (envelopes.filter (·.aggregateId = id)).map unmarked

section News

variable {supply supply' : Nat → Uuid} {id : RelationId} {r : Relation}
  {es : List RelationEvent} {drawn drawn' version : Nat} {ds ds' : List Decision}

theorem newsOf_append (before after : List RelationEnvelope) :
    newsOf id (before ++ after) = newsOf id before ++ newsOf id after := by
  rw [newsOf, List.filter_append, List.map_append]
  rfl

/-- The identifiers that were drawn are not told. -/
theorem newsOf_envelop : newsOf id (World.envelop supply r drawn version es) =
    newsOf id (World.envelop supply' r drawn' version es) := by
  induction es generalizing drawn drawn' version with
  | nil => rfl
  | cons e es ih =>
    rw [World.envelop, World.envelop, newsOf, newsOf, List.filter_cons, List.filter_cons]
    dsimp only
    split
    · exact congrArg (List.cons _) ih
    · exact ih

theorem newsOf_envelop_of_ne (h : r.id ≠ id) :
    newsOf id (World.envelop supply r drawn version es) = [] := by
  rw [newsOf, List.map_eq_nil_iff, List.filter_eq_nil_iff]
  intro envelope henvelope
  rw [((World.carries_envelop supply r es drawn version).origin envelope henvelope).2]
  simpa using h

/-- Decisions tell of a relation what those about it tell. -/
theorem newsOf_envelopAll (supply' : Nat → Uuid) :
    newsOf id (Decision.envelopAll supply drawn ds) =
      (ds.filter (·.relation.id = id)).flatMap fun d =>
        newsOf id (World.envelop supply' d.relation 0 d.relation.version d.events) := by
  induction ds generalizing drawn with
  | nil => rfl
  | cons d ds ih =>
    rw [Decision.envelopAll, newsOf_append, ih]
    by_cases hid : d.relation.id = id
    · rw [List.filter_cons_of_pos (by simpa using hid), List.flatMap_cons, newsOf_envelop]
    · rw [List.filter_cons_of_neg (by simpa using hid), newsOf_envelop_of_ne hid, List.nil_append]

/-- The order of decisions about different relations makes no difference to what they tell
of one. -/
theorem newsOf_perm (hids : (ds.map (·.relation.id)).Nodup) (h : ds'.Perm ds) :
    newsOf id (Decision.envelopAll supply' drawn' ds') =
      newsOf id (Decision.envelopAll supply drawn ds) := by
  have honly : ds'.filter (·.relation.id = id) = ds.filter (·.relation.id = id) := by
    -- both have one element at most, so any order will do
    have hfree : ∀ l : List Decision, l.Pairwise fun _ _ => True := fun l =>
      List.pairwise_of_forall fun _ _ => trivial
    refine List.Perm.eq_of_pairwise ?_ (hfree _) (hfree _) (h.filter _)
    intro d d' hd hd' _ _
    obtain ⟨hd, hid⟩ := List.mem_filter.1 hd
    obtain ⟨hd', hid'⟩ := List.mem_filter.1 hd'
    exact List.inj_on_of_nodup_map hids (h.mem_iff.1 hd) hd'
      ((of_decide_eq_true hid).trans (of_decide_eq_true hid').symm)
  rw [newsOf_envelopAll supply, newsOf_envelopAll supply, honly]

end News

namespace BatchKind

variable {supply supply' : Nat → Uuid} {l : Ledger} {drawn drawn' : Nat} {at_ : Instant}
  {seen : RelationKey → Option Relation} {kind : BatchKind}
  {requests requests' : List kind.Request} {ds : List Decision}

/-- Entries that amend are decided alike in another order. -/
theorem decideEach_perm (hamends : ∀ request ∈ requests, kind.Amends seen request)
    (hperm : requests'.Perm requests)
    (h : decideEach supply l at_ seen kind drawn requests = .ok ds) :
    ∃ ds', ds'.Perm ds ∧ decideEach supply' l at_ seen kind drawn' requests' = .ok ds' := by
  have hamends' : ∀ request ∈ requests', kind.Amends seen request := fun request hrequest =>
    hamends request (hperm.mem_iff.1 hrequest)
  have hdecided : requests.map (kind.decision supply l 0 at_ seen) = ds.map .ok :=
    (decideEach_eq_ok_iff hamends).1 h
  have hpermuted := hperm.map (kind.decision supply l 0 at_ seen)
  rw [hdecided] at hpermuted
  obtain ⟨ds', hds', hperm'⟩ := (congrFun₂ (List.eq_map_comp_perm Except.ok) _ ds).mpr hpermuted
  exact ⟨ds', hperm', (decideEach_eq_ok_iff hamends').2 hds'⟩

/-- There is a decision for each entry. -/
theorem length_decideEach (hamends : ∀ request ∈ requests, kind.Amends seen request)
    (h : decideEach supply l at_ seen kind drawn requests = .ok ds) :
    ds.length = requests.length := by
  have hdecided : requests.map (kind.decision supply l 0 at_ seen) = ds.map .ok :=
    (decideEach_eq_ok_iff hamends).1 h
  simpa using (congrArg List.length hdecided).symm

/-- Each entry comes to the same in another order. -/
theorem getElem?_decideEach {ds' : List Decision}
    (hamends : ∀ request ∈ requests, kind.Amends seen request)
    (hamends' : ∀ request ∈ requests', kind.Amends seen request)
    (h : decideEach supply l at_ seen kind drawn requests = .ok ds)
    (h' : decideEach supply' l at_ seen kind drawn' requests' = .ok ds') {i j : Nat}
    (hsame : requests'[i]? = requests[j]?) : ds'[i]? = ds[j]? := by
  have hdecided : requests.map (kind.decision supply l 0 at_ seen) = ds.map .ok :=
    (decideEach_eq_ok_iff hamends).1 h
  have hdecided' : requests'.map (kind.decision supply l 0 at_ seen) = ds'.map .ok :=
    (decideEach_eq_ok_iff hamends').1 h'
  have hat : ds'[i]?.map (Except.ok (ε := RelationError)) = ds[j]?.map .ok := by
    rw [← List.getElem?_map, ← List.getElem?_map, ← hdecided, ← hdecided', List.getElem?_map,
      List.getElem?_map, hsame]
  exact Option.map_injective (fun _ _ => Except.ok.inj) hat

/-- No two decisions that amend are about one relation. -/
theorem nodup_ids_decideEach {t : Tables} (hs : t.Sound) (hapart : kind.Apart requests)
    (hamends : ∀ request ∈ requests, kind.Amends t.find? request)
    (h : decideEach supply l at_ t.find? kind drawn requests = .ok ds) :
    (ds.map (·.relation.id)).Nodup := by
  have hstored : ∀ d ∈ ds, t.find? d.relation.key = some d.relation := by
    intro d hd
    have hdecided : requests.map (kind.decision supply l 0 at_ t.find?) = ds.map .ok :=
      (decideEach_eq_ok_iff hamends).1 h
    obtain ⟨request, hrequest, hd⟩ := List.mem_map.1 (hdecided ▸ List.mem_map_of_mem hd)
    obtain ⟨⟨key, -, hfind⟩, -⟩ := (hamends request hrequest).existing hd
    rwa [(hs.find?_eq_some.1 hfind).2]
  have hkeys := hapart.nodup_keys (fun key r hr => (hs.find?_eq_some.1 hr).2) h
  refine List.Nodup.map_on ?_ hkeys.of_map
  intro d hd d' hd' hid
  have hget := (hs.find?_eq_some.1 (hstored d hd)).1
  rw [hid, (hs.find?_eq_some.1 (hstored d' hd')).1] at hget
  exact List.inj_on_of_nodup_map hkeys hd hd' (congrArg Relation.key (Option.some.inj hget)).symm

/-- Entries of a call that creates nothing all look a name up. -/
theorem isSome_key? (hkind : kind.creates = false) (request : kind.Request) :
    (kind.key? request).isSome = true := by
  cases kind with
  | create | upsert => cases hkind
  | _ => rfl

/-- What two calls with the same entries, each in its own order, have come to: each entry has
returned the same relation in both, the store and the ledger are the same, and of each
relation the same was published. -/
structure Matched (kind : BatchKind) (supply supply' : Nat → Uuid)
    (requests requests' : List kind.Request) (relations relations' : List Relation) (w : World) :
    Prop where
  length : relations.length = requests.length
  length' : relations'.length = requests'.length
  returned : ∀ i j : Nat, requests'[i]? = requests[j]? → relations'[i]? = relations[j]?
  stored : ∀ id, (World.run supply' (kind.call requests').run w).2.tables.relations.get? id =
    (World.run supply (kind.call requests).run w).2.tables.relations.get? id
  named : ∀ key, (World.run supply' (kind.call requests').run w).2.tables.keys.get? key =
    (World.run supply (kind.call requests).run w).2.tables.keys.get? key
  ledger : (World.run supply' (kind.call requests').run w).2.ledger =
    (World.run supply (kind.call requests).run w).2.ledger
  news : ∀ id, newsOf id (published (World.exchanges supply' (kind.call requests').run w)) =
    newsOf id (published (World.exchanges supply (kind.call requests).run w))

section Matched

variable {w : World} (hs : w.tables.Sound) (hl : w.tables.Live)

include hs hl

/-- Decisions that are permuted come to the same. -/
theorem matched_of_perm {ds' : List Decision} (hapart : kind.Apart requests)
    (hapart' : kind.Apart requests') (hamends : ∀ request, kind.Amends w.tables.find? request)
    (h : decideEach supply w.ledger w.clock w.tables.find? kind w.drawn requests = .ok ds)
    (h' : decideEach supply' w.ledger w.clock w.tables.find? kind w.drawn requests' = .ok ds')
    (hperm : ds'.Perm ds) : kind.Matched supply supply' requests requests'
      (ds.map Decision.result) (ds'.map Decision.result) w := by
  have hall : ∀ requests : List kind.Request, ∀ request ∈ requests,
      kind.Amends w.tables.find? request := fun _ request _ => hamends request
  have hcall := apart_ok hs hl hapart (.inl (hall _)) h
  have hcall' := apart_ok hs hl hapart' (.inl (hall _)) h'
  have hkey : ∀ key r, w.tables.find? key = some r → r.key = key := fun key r hr =>
    (hs.find?_eq_some.1 hr).2
  have hsame : Decision.overlayAll ds' w.tables.find? = Decision.overlayAll ds w.tables.find? :=
    Decision.overlayAll_perm (hapart.nodup_keys hkey h) hperm
  obtain ⟨hstored, hnamed⟩ := hcall'.sound.get?_eq_of_find?_eq hcall.sound fun key => by
    rw [hcall'.shown, hcall.shown, hsame]
  exact
    { length := (List.length_map _).trans (length_decideEach (hall _) h)
      length' := (List.length_map _).trans (length_decideEach (hall _) h')
      returned := fun i j hij => by
        rw [List.getElem?_map, List.getElem?_map, getElem?_decideEach (hall _) (hall _) h h' hij]
      stored := hstored
      named := hnamed
      ledger := (World.ledger_run _).trans (World.ledger_run _).symm
      news := fun id => by
        rw [hcall'.told, hcall.told]
        exact newsOf_perm (nodup_ids_decideEach hs hapart (hall _) h) hperm }

end Matched

end BatchKind

/-- A batch of entries about different relations that are there: in another order it succeeds
if and only if it does in this one, and then both come to the same, entry by entry and
relation by relation. -/
theorem permuted_batch_matched {w : World} (hw : w.Reachable) {kind : BatchKind}
    (hkind : kind.creates = false) {requests requests' : List kind.Request}
    (hkeys : (requests.map kind.key?).Nodup) (hperm : requests'.Perm requests)
    (supply supply' : Nat → Uuid) :
    ((World.run supply' (kind.call requests').run w).1.isOk =
      (World.run supply (kind.call requests).run w).1.isOk) ∧
    ∀ relations relations', (World.run supply (kind.call requests).run w).1 = .ok relations →
      (World.run supply' (kind.call requests').run w).1 = .ok relations' →
      kind.Matched supply supply' requests requests' relations relations' w := by
  obtain ⟨hs, hl⟩ := hw.sound
  have hapart : kind.Apart requests := ⟨fun request _ => BatchKind.isSome_key? hkind request, hkeys⟩
  have hapart' : kind.Apart requests' :=
    ⟨fun request _ => BatchKind.isSome_key? hkind request, (hperm.map kind.key?).nodup_iff.2 hkeys⟩
  have hamends : ∀ requests : List kind.Request, ∀ request ∈ requests,
      kind.Amends w.tables.find? request := fun _ _ _ => .inl hkind
  cases hds : kind.decideEach supply w.ledger w.clock w.tables.find? w.drawn requests with
  | error e =>
    have hfailed := BatchKind.apart_error hs hl hapart (.inl (hamends _)) hds
    cases hds' : kind.decideEach supply' w.ledger w.clock w.tables.find? w.drawn requests' with
    | error e' =>
      have hfailed' := BatchKind.apart_error hs hl hapart' (.inl (hamends _)) hds'
      rw [hfailed, hfailed']
      exact ⟨rfl, fun relations relations' hok => nomatch hok⟩
    | ok ds' =>
      -- then the first order would have succeeded too
      obtain ⟨ds, -, hds''⟩ := BatchKind.decideEach_perm (hamends _) hperm.symm hds'
      cases hds.symm.trans hds''
  | ok ds =>
    obtain ⟨ds', hpermuted, hds'⟩ : ∃ ds', ds'.Perm ds ∧ kind.decideEach supply' w.ledger w.clock
        w.tables.find? w.drawn requests' = .ok ds' :=
      BatchKind.decideEach_perm (hamends _) hperm hds
    have hvalue := (BatchKind.apart_ok hs hl hapart (.inl (hamends _)) hds).value
    have hvalue' := (BatchKind.apart_ok hs hl hapart' (.inl (hamends _)) hds').value
    rw [hvalue, hvalue']
    refine ⟨rfl, fun relations relations' hok hok' => ?_⟩
    cases hok
    cases hok'
    exact BatchKind.matched_of_perm hs hl hapart hapart' (fun _ => .inl hkind) hds hds' hpermuted

private abbrev orderTenant : TenantBpnl := ⟨"T20", by cbv, by decide⟩
private abbrev orderName : ExternalId := ⟨"R29", by cbv, by decide⟩
private abbrev orderName' : ExternalId := ⟨"R30", by cbv, by decide⟩
private abbrev orderPartner : ExternalId := ⟨"P29", by cbv, by decide⟩
private abbrev orderPartner' : ExternalId := ⟨"P30", by cbv, by decide⟩

/-- Two relations are created. -/
def couple : List Choice := List.flatten
  [[.insert (.fresh ⟨.ofNat 1⟩ orderTenant orderPartner .epoch),
      .insert (.fresh ⟨.ofNat 2⟩ orderTenant orderPartner' .epoch)],
    .arrive (.write (.batch (.create orderTenant)
      [⟨some orderName, .isManagedBy, orderPartner, orderPartner'⟩,
        ⟨some orderName', .isManagedBy, orderPartner, orderPartner'⟩])) ::
      Choice.turns 0 19 100]

/-- The first relation is to change, the second to stay. -/
def revision : List InputRelationUpsert :=
  [⟨orderName, .isOwnedBy, orderPartner, orderPartner'⟩,
    ⟨orderName', .isManagedBy, orderPartner, orderPartner'⟩]

/-- Either way the first relation has two more events, and the second has none. -/
theorem revision_matched : ∃ s relations relations', (System.start .epoch).play couple = some s ∧
    relations.map (·.version) = [3, 1] ∧ relations'.map (·.version) = [1, 3] ∧
    (BatchKind.update orderTenant).Matched .ofNat (fun n => .ofNat (300 + n)) revision
      revision.reverse relations relations' s.world := by
  have hrun : ((System.start .epoch).play couple).map (fun s =>
      ((World.run .ofNat ((BatchKind.update orderTenant).call revision).run s.world).1.toOption.map
          fun relations => relations.map (·.version),
        (World.run (fun n => .ofNat (300 + n)) ((BatchKind.update orderTenant).call
          revision.reverse).run s.world).1.toOption.map fun relations =>
            relations.map (·.version))) =
      some (some [3, 1], some [1, 3]) := by decide +kernel
  obtain ⟨s, hplay, hs⟩ := Option.map_eq_some_iff.1 hrun
  obtain ⟨hbatch, hpermuted⟩ := Prod.mk.inj hs
  obtain ⟨relations, hok, hversions⟩ := Option.map_eq_some_iff.1 hbatch
  obtain ⟨relations', hok', hversions'⟩ := Option.map_eq_some_iff.1 hpermuted
  have hw : s.world.Reachable := ⟨s, ⟨.epoch, couple, hplay⟩, rfl⟩
  refine ⟨s, relations, relations', hplay, hversions, hversions', ?_⟩
  exact (@permuted_batch_matched _ hw (.update orderTenant) rfl revision revision.reverse
    (by decide) (List.reverse_perm _) .ofNat fun n => .ofNat (300 + n)).2 relations relations'
      (Relation.toOption_eq_some.1 hok) (Relation.toOption_eq_some.1 hok')

end PartnerRelations
