/-
# `Proofs.Concurrent.Isolation` — tenants do not notice each other

All tenants share one store, one ledger and one bus.  Take two states, each reached by calls
and writes of its own, that have the same relations and the same ledger records of one
tenant.  They may differ in all else: other tenants may have anything in one of them, under
the same names or others, and nothing in the other.  Then a call of the tenant, at the same
time and with the same identifiers to draw,

    comes to the same value or failure,
    publishes the same envelopes,
    and leaves the same relations of the tenant

in both, and in each it leaves what all other tenants have as it was.

Two things are asked of identifiers.  Those that are drawn are not those of relations of
other tenants, since the store would replace such a relation.  And no record of a partner
was ever written for two tenants under one identifier, since a search for inputs finds the
partners by identifier alone.
-/
import PartnerRelations.Proofs.Concurrent.Reference
import PartnerRelations.Proofs.World.Tenancy

namespace PartnerRelations

namespace System

variable {s s' : System} {tenant : TenantBpnl} {supply supply' : Nat → Uuid}

/-- A reachable store serves a tenant that draws no identifier of the others. -/
theorem Reachable.serves (hs : s.Reachable)
    (hfresh : ∀ n, s.world.tables.Allots tenant ⟨supply (s.world.drawn + n)⟩) :
    s.world.Serves tenant supply [] where
  tenanted := (World.Reachable.sound ⟨s, hs, rfl⟩).1.tenanted
  allots := fun _ h => absurd h List.not_mem_nil
  fresh := hfresh

/-- The tenant's own ledger records decide what a search for inputs finds. -/
theorem searchInput_ofTenant {clock : Instant} {choices : List Choice}
    (hplay : (start clock).play choices = some s) (hids : (written choices).Separate)
    (filter : InputRelationFilter) (page : PageRequest) :
    s.world.tables.searchInput (s.world.ledger.ofTenant tenant) tenant filter page =
      s.world.tables.searchInput s.world.ledger tenant filter page := by
  have hrefers : s.Refers choices False := (refers_start clock False).play (fun h => h.elim) hplay
  exact Tables.searchInput_ofTenant hids hrefers.world.held hrefers.world.stored

end System

/-- A tenant's call does the same in all states that agree on the tenant's relations and
ledger records, and leaves what other tenants have as it was. -/
theorem tenants_are_isolated {tenant : TenantBpnl} {c : ServiceCall} (hc : c.IsOf tenant)
    {clock clock' : Instant} {choices choices' : List Choice} {s s' : System}
    (hplay : (System.start clock).play choices = some s)
    (hplay' : (System.start clock').play choices' = some s')
    (hids : (written choices).Separate) (hids' : (written choices').Separate)
    {supply supply' : Nat → Uuid}
    (hfresh : ∀ n, s.world.tables.Allots tenant ⟨supply (s.world.drawn + n)⟩)
    (hfresh' : ∀ n, s'.world.tables.Allots tenant ⟨supply' (s'.world.drawn + n)⟩)
    (hsupply : ∀ n, supply (s.world.drawn + n) = supply' (s'.world.drawn + n))
    (hclock : s.world.clock = s'.world.clock)
    (hrelations : ∀ {id r}, r.tenant = tenant →
      (s.world.tables.relations.get? id = some r ↔ s'.world.tables.relations.get? id = some r))
    (hrecords : s.world.ledger.ofTenant tenant = s'.world.ledger.ofTenant tenant) :
    (World.run supply c.call.run s.world).1 = (World.run supply' c.call.run s'.world).1 ∧
    (∃ envelopes,
      (World.run supply c.call.run s.world).2.published = s.world.published ++ envelopes ∧
      (World.run supply' c.call.run s'.world).2.published = s'.world.published ++ envelopes) ∧
    (World.run supply c.call.run s.world).2.tables.AgreeOn (· = tenant)
      (World.run supply' c.call.run s'.world).2.tables ∧
    s.world.tables.AgreeOn (· ≠ tenant) (World.run supply c.call.run s.world).2.tables ∧
    s'.world.tables.AgreeOn (· ≠ tenant) (World.run supply' c.call.run s'.world).2.tables := by
  have hs : s.Reachable := ⟨clock, choices, hplay⟩
  have hs' : s'.Reachable := ⟨clock', choices', hplay'⟩
  have sound := (World.Reachable.sound ⟨s, hs, rfl⟩).1
  have sound' := (World.Reachable.sound ⟨s', hs', rfl⟩).1
  have halike : World.Alike tenant supply supply' s.world s'.world :=
    ⟨hclock, hsupply, sound.agreeOn sound' hrelations, hrecords⟩
  cases hsearch : c.isSearch with
  | false =>
    have hleads := c.leads_within hc hsearch
    have hserves := hs.serves hfresh
    have hserves' := hs'.serves hfresh'
    obtain ⟨hout, hsaid, hafter⟩ := World.run_alike hleads halike hserves hserves'
    refine ⟨hout, ⟨_, World.published_run _ _, hsaid ▸ World.published_run _ _⟩, hafter.tables, ?_⟩
    exact ⟨(World.run_serves hleads hserves).1, (World.run_serves hleads hserves').1⟩
  | true =>
    -- a search changes nothing, and lists the tenant's relations
    have hlisted := halike.tables.ofTenant sound sound'
    have hrest : (∃ envelopes, s.world.published = s.world.published ++ envelopes ∧
        s'.world.published = s'.world.published ++ envelopes) ∧
        s.world.tables.AgreeOn (· = tenant) s'.world.tables ∧
        s.world.tables.AgreeOn (· ≠ tenant) s.world.tables ∧
        s'.world.tables.AgreeOn (· ≠ tenant) s'.world.tables :=
      ⟨⟨[], (List.append_nil _).symm, (List.append_nil _).symm⟩, halike.tables, .refl _ _,
        .refl _ _⟩
    cases c with
    | findInputs settings owner filter page =>
      obtain rfl : owner = tenant := hc
      refine ⟨congrArg Except.ok ?_, hrest⟩
      rw [← System.searchInput_ofTenant hplay hids, ← System.searchInput_ofTenant hplay' hids',
        hrecords]
      unfold Tables.searchInput
      rw [hlisted]
    | findOutputs settings owner filter page =>
      obtain rfl : owner = tenant := hc
      refine ⟨congrArg Except.ok ?_, hrest⟩
      unfold Tables.searchOutput
      rw [hlisted]
    | findSharingStates settings owner filter page =>
      obtain rfl : owner = tenant := hc
      refine ⟨congrArg Except.ok ?_, hrest⟩
      unfold Tables.searchSharingStates
      rw [hlisted]
    | _ => cases hsearch

private abbrev isolatedTenant : TenantBpnl := ⟨"T12", by cbv, by decide⟩
private abbrev isolatedNeighbour : TenantBpnl := ⟨"T13", by cbv, by decide⟩
private abbrev isolatedName : ExternalId := ⟨"R13", by cbv, by decide⟩
private abbrev isolatedName' : ExternalId := ⟨"R14", by cbv, by decide⟩
private abbrev isolatedPartner : ExternalId := ⟨"P16", by cbv, by decide⟩
private abbrev isolatedPartner' : ExternalId := ⟨"P17", by cbv, by decide⟩

/-- A tenant has two partners, under identifiers from a first one on, and is the `i`-th to
create a relation, with identifiers from another on. -/
def settling (tenant : TenantBpnl) (i partners first : Nat) : List Choice :=
  .insert (.fresh ⟨.ofNat partners⟩ tenant isolatedPartner .epoch) ::
  .insert (.fresh ⟨.ofNat (partners + 1)⟩ tenant isolatedPartner' .epoch) ::
  .arrive (.write (.batch (.upsert .standard tenant)
    [⟨isolatedName, .isManagedBy, isolatedPartner, isolatedPartner'⟩])) :: Choice.turns i 11 first

/-- Another tenant was there before, with the same names. -/
def crowded : List Choice :=
  settling isolatedNeighbour 0 3 200 ++ settling isolatedTenant 1 1 100

/-- Some identifiers, after a number of others. -/
def numbers (past n : Nat) : Uuid := .ofNat (500 + (n - past) % 8)

/-- The relation is updated, and another one created. -/
def renewal : ServiceCall := .write (.batch (.upsert .standard isolatedTenant)
  [⟨isolatedName, .isOwnedBy, isolatedPartner, isolatedPartner'⟩,
    ⟨isolatedName', .isManagedBy, isolatedPartner, isolatedPartner'⟩])

set_option maxRecDepth 4000 in
/-- The tenant gets the same with a neighbour and without, and the neighbour keeps its
relation. -/
theorem neighbours_unnoticed : ∃ s s',
    (System.start .epoch).play crowded = some s ∧
    (System.start .epoch).play (settling isolatedTenant 0 1 100) = some s' ∧
    s.world.tables.relations.values.map Relation.key =
      [⟨isolatedNeighbour, isolatedName⟩, ⟨isolatedTenant, isolatedName⟩] ∧
    s'.world.tables.relations.values.map Relation.key = [⟨isolatedTenant, isolatedName⟩] ∧
    ((World.run (numbers 2) renewal.call.run s'.world).1.map fun relations =>
      relations.map Relation.version) = .ok [3, 1] ∧
    (World.run (numbers 4) renewal.call.run s.world).1 =
      (World.run (numbers 2) renewal.call.run s'.world).1 ∧
    (∃ envelopes,
      (World.run (numbers 4) renewal.call.run s.world).2.published =
        s.world.published ++ envelopes ∧
      (World.run (numbers 2) renewal.call.run s'.world).2.published =
        s'.world.published ++ envelopes) ∧
    (World.run (numbers 4) renewal.call.run s.world).2.tables.AgreeOn (· = isolatedTenant)
      (World.run (numbers 2) renewal.call.run s'.world).2.tables ∧
    s.world.tables.AgreeOn (· ≠ isolatedTenant)
      (World.run (numbers 4) renewal.call.run s.world).2.tables ∧
    s'.world.tables.AgreeOn (· ≠ isolatedTenant)
      (World.run (numbers 2) renewal.call.run s'.world).2.tables := by
  have hrun : (((System.start .epoch).play crowded).bind fun s =>
      ((System.start .epoch).play (settling isolatedTenant 0 1 100)).map fun s' =>
        ((s.world.drawn, s'.world.drawn), (s.world.clock, s'.world.clock),
          s.world.tables.relations.values.map Relation.key,
          s'.world.tables.relations.values.map Relation.key,
          decide (s'.world.tables.relations.rows =
            s.world.tables.relations.rows.filter fun row => row.2.tenant = isolatedTenant),
          decide (s.world.ledger.ofTenant isolatedTenant = s'.world.ledger.ofTenant isolatedTenant),
          (List.range 8).filterMap fun k => s.world.tables.relations.get? ⟨.ofNat (500 + k)⟩,
          (List.range 8).filterMap fun k => s'.world.tables.relations.get? ⟨.ofNat (500 + k)⟩,
          (World.run (numbers 2) renewal.call.run s'.world).1.map fun relations =>
            relations.map Relation.version)) =
      some ((4, 2), (.epoch, .epoch),
        [⟨isolatedNeighbour, isolatedName⟩, ⟨isolatedTenant, isolatedName⟩],
        [⟨isolatedTenant, isolatedName⟩], true, true, [], [], .ok [3, 1]) := by
    cbv
  obtain ⟨s, hplay, hrun⟩ := Option.bind_eq_some_iff.1 hrun
  obtain ⟨s', hplay', hrun⟩ := Option.map_eq_some_iff.1 hrun
  simp only [Prod.mk.injEq, decide_eq_true_eq, List.filterMap_eq_nil_iff, List.mem_range] at hrun
  obtain ⟨⟨hdrawn, hdrawn'⟩, ⟨hclock, hclock'⟩, hkeys, hkeys', hrows, hrecords, hfree, hfree',
    hversions⟩ := hrun
  have sound := (World.Reachable.sound ⟨s, ⟨.epoch, crowded, hplay⟩, rfl⟩).1
  have sound' := (World.Reachable.sound ⟨s', ⟨.epoch, _, hplay'⟩, rfl⟩).1
  have hfresh : ∀ n, s.world.tables.Allots isolatedTenant ⟨numbers 4 (s.world.drawn + n)⟩ := by
    intro n r hr
    rw [numbers, hfree _ (Nat.mod_lt _ (by decide))] at hr
    cases hr
  have hfresh' : ∀ n, s'.world.tables.Allots isolatedTenant ⟨numbers 2 (s'.world.drawn + n)⟩ := by
    intro n r hr
    rw [numbers, hfree' _ (Nat.mod_lt _ (by decide))] at hr
    cases hr
  have hsupply : ∀ n, numbers 4 (s.world.drawn + n) = numbers 2 (s'.world.drawn + n) := by
    intro n
    rw [hdrawn, hdrawn', numbers, numbers, Nat.add_sub_cancel_left, Nat.add_sub_cancel_left]
  have hcall : renewal.IsOf isolatedTenant := fun _ _ => rfl
  refine ⟨s, s', hplay, hplay', hkeys, hkeys', hversions, tenants_are_isolated hcall
    hplay hplay' (Ledger.separate_holds (by decide)) (Ledger.separate_holds (by decide))
    hfresh hfresh' hsupply (hclock.trans hclock'.symm) ?_ hrecords⟩
  intro id r hr
  rw [sound.keyed.get?_eq_some, sound'.keyed.get?_eq_some, hrows, List.mem_filter]
  simp [hr]

end PartnerRelations
