/-
# `Proofs.World.Tenancy` — worlds that a tenant cannot tell apart

Two worlds are alike to a tenant if they show the same time, draw the same identifiers, and
agree on the tenant's relations and on the tenant's ledger records (`World.Alike`).  What
else they hold is anybody's.  A dialogue that keeps to the tenant says and hears the same in
both, comes to the same, and leaves them alike (`run_alike`); and in each it leaves what all
others have as it was (`run_serves`).

Both need that a world can serve the tenant: under the identifiers that the tenant speaks
of, and under those that it is going to draw, nobody else has anything (`World.Serves`).
-/
import PartnerRelations.Proofs.Service.Tenancy
import PartnerRelations.Proofs.Store.Tenancy
import PartnerRelations.Proofs.World.Run

namespace PartnerRelations

namespace World

variable {tenant : TenantBpnl} {own : List RelationId} {supply supply' : Nat → Uuid}
  {w w' : World} {q : Query} {α : Type}

/-- Two worlds, with their supplies of identifiers, that a tenant cannot tell apart. -/
structure Alike (tenant : TenantBpnl) (supply supply' : Nat → Uuid) (w w' : World) : Prop where
  clock : w.clock = w'.clock
  supply : ∀ n, supply (w.drawn + n) = supply' (w'.drawn + n)
  tables : w.tables.AgreeOn (· = tenant) w'.tables
  ledger : w.ledger.ofTenant tenant = w'.ledger.ofTenant tenant

/-- Under the identifiers that the tenant speaks of or may draw, nobody else has anything. -/
structure Serves (tenant : TenantBpnl) (supply : Nat → Uuid) (own : List RelationId)
    (w : World) : Prop where
  tenanted : w.tables.Tenanted tenant
  allots : ∀ id ∈ own, w.tables.Allots tenant id
  fresh : ∀ n, w.tables.Allots tenant ⟨supply (w.drawn + n)⟩

/-! ## One answer -/

/-- A tenant is served what is its own, which leaves what all others have. -/
theorem Serves.answer {x : q.Answer} (hw : w.Serves tenant supply own)
    (hq : q.KeepsTo tenant own) (hanswer : w.answer supply q = (x, w')) :
    Turn.Suits tenant ⟨q, x⟩ ∧ w'.Serves tenant supply (Turn.lends ⟨q, x⟩ ++ own) ∧
      w.tables.AgreeOn (· ≠ tenant) w'.tables ∧ w'.ledger = w.ledger := by
  have refl := Tables.AgreeOn.refl (· ≠ tenant) w.tables
  cases q with
  | freshId use =>
    cases hanswer
    have fresh : ∀ n, w.tables.Allots tenant ⟨supply (w.drawn + 1 + n)⟩ :=
      fun n => Nat.add_assoc w.drawn 1 n ▸ hw.fresh (1 + n)
    cases use with
    | relation =>
      refine ⟨trivial, ⟨hw.tenanted, ?_, fresh⟩, refl, rfl⟩
      exact List.forall_mem_cons.2 ⟨hw.fresh 0, hw.allots⟩
    | externalId => exact ⟨trivial, ⟨hw.tenanted, hw.allots, fresh⟩, refl, rfl⟩
    | event => exact ⟨trivial, ⟨hw.tenanted, hw.allots, fresh⟩, refl, rfl⟩
  | findByKey key =>
    obtain ⟨rfl, rfl⟩ := Prod.mk.inj hanswer
    cases hr : w.tables.find? key with
    | none => exact ⟨trivial, hw, refl, rfl⟩
    | some r =>
      obtain ⟨htenant, hallots⟩ := hw.tenanted.find? hq hr
      have allots : ∀ id ∈ r.id :: own, w.tables.Allots tenant id :=
        List.forall_mem_cons.2 ⟨hallots, hw.allots⟩
      exact ⟨htenant, ⟨hw.tenanted, allots, hw.fresh⟩, refl, rfl⟩
  | commit changes =>
    cases hcommit : w.tables.commit changes with
    | error e =>
      simp only [World.answer, hcommit] at hanswer
      cases hanswer
      exact ⟨trivial, hw, refl, rfl⟩
    | ok tables =>
      simp only [World.answer, hcommit] at hanswer
      cases hanswer
      obtain ⟨hallots, htenanted, hothers⟩ :=
        Tables.commit_owned (fun c hc => ⟨hw.allots _ (hq c hc).1, (hq c hc).2⟩) hcommit
      exact ⟨trivial, ⟨htenanted hw.tenanted, fun id hid => hallots id (hw.allots id hid),
        fun n => hallots _ (hw.fresh n)⟩, hothers, rfl⟩
  | now =>
    cases hanswer
    exact ⟨trivial, hw, refl, rfl⟩
  | partnerRecords owner externalId =>
    cases hanswer
    exact ⟨trivial, hw, refl, rfl⟩
  | publish envelope =>
    cases hanswer
    exact ⟨trivial, ⟨hw.tenanted, hw.allots, hw.fresh⟩, refl, rfl⟩
  | log event =>
    cases hanswer
    exact ⟨trivial, ⟨hw.tenanted, hw.allots, hw.fresh⟩, refl, rfl⟩
  | _ => exact hq.elim

/-- Worlds that are alike to a tenant give it the same answers and stay alike. -/
theorem Alike.answer (h : Alike tenant supply supply' w w') (hw : w.Serves tenant supply own)
    (hw' : w'.Serves tenant supply' own) (hq : q.KeepsTo tenant own) :
    (w.answer supply q).1 = (w'.answer supply' q).1 ∧
    Alike tenant supply supply' (w.answer supply q).2 (w'.answer supply' q).2 := by
  cases q with
  | now => exact ⟨h.clock, h⟩
  | freshId use =>
    refine ⟨h.supply 0, h.clock, fun n => ?_, h.tables, h.ledger⟩
    simpa [World.answer, Nat.add_assoc] using h.supply (1 + n)
  | findByKey key =>
    exact ⟨congrArg Except.ok (h.tables.find?_eq hw.tenanted hw'.tenanted hq), h⟩
  | partnerRecords owner externalId =>
    obtain rfl : owner = tenant := hq
    refine ⟨congrArg Except.ok ?_, h⟩
    rw [← Ledger.ofPartner_ofTenant, h.ledger, Ledger.ofPartner_ofTenant]
  | commit changes =>
    simp only [World.answer]
    rcases h.tables.commit (fun c hc => ⟨hw.allots _ (hq c hc).1, (hq c hc).2⟩)
      (fun c hc => ⟨hw'.allots _ (hq c hc).1, (hq c hc).2⟩) with
      ⟨e, he, he'⟩ | ⟨t, t', ht, ht', hagree⟩
    · rw [he, he']
      exact ⟨rfl, h⟩
    · rw [ht, ht']
      exact ⟨rfl, h.clock, h.supply, hagree, h.ledger⟩
  | publish envelope => exact ⟨rfl, h.clock, h.supply, h.tables, h.ledger⟩
  | log event => exact ⟨rfl, h.clock, h.supply, h.tables, h.ledger⟩
  | _ => exact hq.elim

/-! ## Whole dialogues -/

/-- A dialogue that keeps to a tenant leaves what all others have as it was. -/
theorem run_serves {post : α → List RelationId → Prop} {p : Dialogue α} :
    ∀ {w : World} {own : List RelationId}, p.Leads (within tenant) post own →
      w.Serves tenant supply own →
      w.tables.AgreeOn (· ≠ tenant) (run supply p w).2.tables ∧
      (run supply p w).2.ledger = w.ledger := by
  induction p with
  | done a =>
    intro w own _ _
    exact ⟨.refl _ _, rfl⟩
  | ask q next ih =>
    intro w own hp hw
    have hanswer : w.answer supply q = ((w.answer supply q).1, (w.answer supply q).2) := rfl
    obtain ⟨hsuits, hserves, hothers, hledger⟩ := hw.answer hp.1 hanswer
    obtain ⟨hothers', hledger'⟩ := ih _ (hp.2 _ hsuits) hserves
    exact ⟨hothers.trans hothers', hledger'.trans hledger⟩

/-- A dialogue that keeps to a tenant goes the same way in worlds that are alike to it. -/
theorem run_alike {post : α → List RelationId → Prop} {p : Dialogue α} :
    ∀ {w w' : World} {own : List RelationId}, p.Leads (within tenant) post own →
      Alike tenant supply supply' w w' → w.Serves tenant supply own →
      w'.Serves tenant supply' own →
      (run supply p w).1 = (run supply' p w').1 ∧
      exchanges supply p w = exchanges supply' p w' ∧
      Alike tenant supply supply' (run supply p w).2 (run supply' p w').2 := by
  induction p with
  | done a =>
    intro w w' own _ h _ _
    exact ⟨rfl, rfl, h⟩
  | ask q next ih =>
    intro w w' own hp h hw hw'
    obtain ⟨hx, hnext⟩ := h.answer hw hw' hp.1
    have hanswer : w.answer supply q = ((w.answer supply q).1, (w.answer supply q).2) := rfl
    have hanswer' : w'.answer supply' q = ((w.answer supply q).1, (w'.answer supply' q).2) :=
      Prod.ext hx.symm rfl
    obtain ⟨hsuits, hserves, -⟩ := hw.answer hp.1 hanswer
    obtain ⟨-, hserves', -⟩ := hw'.answer hp.1 hanswer'
    obtain ⟨hout, hsaid, halike⟩ := ih _ (hp.2 _ hsuits) hnext hserves hserves'
    rw [run_ask, run_ask, exchanges_ask, exchanges_ask, ← hx]
    exact ⟨hout, congrArg _ hsaid, halike⟩

end World

end PartnerRelations
