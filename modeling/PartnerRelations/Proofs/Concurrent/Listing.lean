/-
# `Proofs.Concurrent.Listing` — pages in the order of creation

Whatever interleaving led to a state, each of the three searches has one list there
(`Search.Lists`): the views of the tenant's relations that have one and are wanted, each
once, in the strict order of creation.  The call cuts its pages out of that list, for every
number and size of a page, every bound on sizes and every order in which the table of
relations may be traversed (`Search.Paged`):

    a page      the elements from `page * s` up to `page * s + s - 1`, with `s` the size
                brought between 1 and the bound; behind the last page there is nothing
    all pages   read one after the other, they are the list

The order does not change in the course of a run.  A relation has the moment of its first
event for good, and its identifier, so two relations that are listed at two points of a run
come in the same order at both, whatever was searched for there.
-/
import PartnerRelations.Proofs.Concurrent.Deletion
import PartnerRelations.Proofs.Page
import PartnerRelations.Proofs.Store.Listing

namespace PartnerRelations

/-- Nothing that happens to a stored relation changes when it was created. -/
theorem History.Accounts.createdAt_eq {h h' : History} {t t' : Tables} (ha : h.Accounts t)
    (ha' : h'.Accounts t') (hext : h.Extends h') {r r' : Relation}
    (hr : t.relations.get? r.id = some r) (hr' : t'.relations.get? r'.id = some r')
    (hid : r.id = r'.id) : r.createdAt = r'.createdAt := by
  obtain ⟨hcurrent, hcreated⟩ := ha.stored hr
  obtain ⟨hcurrent', -⟩ := ha'.stored hr'
  have hborn := (ha.recalls hr).envelopes_ne_nil (Relation.isCreated_iff.1 hcreated).1
  obtain ⟨first, rest, hevents⟩ : ∃ first rest, h.events r.id = first :: rest :=
    List.exists_cons_of_ne_nil fun hnil => hborn (List.map_eq_nil_iff.1 hnil)
  obtain ⟨more, hmore⟩ := hext.envelopes r.id
  have hfirst : first ∈ (h.events r.id).head? := by rw [hevents]; rfl
  have hfirst' : first ∈ (h'.events r'.id).head? := by
    rw [← hid, History.events, hmore, List.map_append, ← History.events, hevents]
    rfl
  rw [hcurrent, hcurrent', ((ha.lawful r.id).createdAt_eq first hfirst).2,
    ((ha'.lawful r'.id).createdAt_eq first hfirst').2]

namespace Search

/-- The size that a service gives a page. -/
def pageSize (settings : ServiceSettings) (size : UInt32) : Nat :=
  max 1 (min size.toNat (max 1 settings.maxPageSize.toNat))

/-- The answers to a search are the pages of a list. -/
structure Paged (q : Search) (w : World) (tenant : TenantBpnl) (all : List q.View) : Prop where
  page : ∀ supply settings request, ∃ p,
    q.answer supply w settings tenant request = .ok p ∧
    p.Cuts all request.page (pageSize settings request.size) ∧
    (p.totalPages ≤ request.page.toNat → p.content = [])
  /-- No word of the computation is too short: position and size are exact. -/
  exact : ∀ settings (request : PageRequest),
    (request.clamped settings.maxPageSize).offset.toNat =
      request.page.toNat * pageSize settings request.size ∧
    (request.clamped settings.maxPageSize).limit.toNat = pageSize settings request.size
  /-- The first pages, as many as there are numbers for, are the first part of the list. -/
  pages : ∀ supply settings size n, n ≤ UInt32.size → ∃ pages,
    (List.range n).mapM (fun i => q.answer supply w settings tenant ⟨.ofNat i, size⟩) =
      .ok pages ∧
    pages.flatMap Page.content = all.take (n * pageSize settings size)
  /-- All pages are the list. -/
  whole : ∀ supply settings request p, q.answer supply w settings tenant request = .ok p →
    p.totalPages ≤ UInt32.size → ∃ pages,
      (List.range p.totalPages).mapM
        (fun i => q.answer supply w settings tenant ⟨.ofNat i, request.size⟩) = .ok pages ∧
      pages.flatMap Page.content = all

variable {q : Search} {w : World} {tenant : TenantBpnl}

theorem toNat_size_clamped (settings : ServiceSettings) (request : PageRequest) :
    (request.clamped settings.maxPageSize).size.toNat = pageSize settings request.size :=
  request.toNat_size_clamped settings.maxPageSize

/-- A search pages what it goes through. -/
theorem paged (q : Search) (w : World) (tenant : TenantBpnl) :
    q.Paged w tenant ((w.tables.ofTenant tenant).filterMap (q.view? w.ledger)) := by
  have hcuts : ∀ (settings : ServiceSettings) (request : PageRequest),
      (Page.ofSorted (request.clamped settings.maxPageSize)
        ((w.tables.ofTenant tenant).filterMap (q.view? w.ledger))).Cuts
        ((w.tables.ofTenant tenant).filterMap (q.view? w.ledger)) request.page
        (pageSize settings request.size) := fun settings request => by
    rw [← toNat_size_clamped]
    exact Page.ofSorted_cuts (request.size_clamped_pos _) _
  have hpages : ∀ supply settings size n, n ≤ UInt32.size → ∃ pages,
      (List.range n).mapM (fun i => q.answer supply w settings tenant ⟨.ofNat i, size⟩) =
        .ok pages ∧
      pages.flatMap Page.content = ((w.tables.ofTenant tenant).filterMap
        (q.view? w.ledger)).take (n * pageSize settings size) := by
    intro supply settings size n hn
    simp only [answer_eq]
    refine ⟨_, List.mapM_pure, ?_⟩
    rw [List.flatMap_map]
    exact Page.flatMap_content hn fun i _ => hcuts settings ⟨.ofNat i, size⟩
  refine ⟨fun supply settings request => ?_, fun settings request => ?_, hpages, ?_⟩
  · exact ⟨_, answer_eq .., hcuts settings request, (hcuts settings request).content_eq_nil⟩
  · rw [PageRequest.toNat_offset, PageRequest.toNat_limit, toNat_size_clamped]
    exact ⟨rfl, rfl⟩
  · intro supply settings request p hp hsize
    rw [answer_eq] at hp
    cases hp
    obtain ⟨pages, hread, hcontent⟩ := hpages supply settings request.size _ hsize
    refine ⟨pages, hread, hcontent.trans (List.take_of_length_le ?_)⟩
    exact ((hcuts settings request).totalPages _).1 (Nat.le_refl _)

end Search

namespace System

/-- The identifiers of listed relations, in their order. -/
def listedIds {q : Search} (listed : List (Relation × q.View)) : List RelationId :=
  listed.map fun a => a.1.id

/-- What a search lists in a state, and what this says of later states. -/
structure Searched (s : System) (tenant : TenantBpnl) (q : Search)
    (listed : List (Relation × q.View)) : Prop where
  lists : q.Lists s.world tenant listed
  /-- Every world with this ledger and the rows of this table, in any order, pages the list. -/
  paged : ∀ w : World, w.tables.relations.rows.Perm s.world.tables.relations.rows →
    w.ledger = s.world.ledger → q.Paged w tenant (listed.map Prod.snd)
  /-- Two relations listed here and listed later come in the same order. -/
  order : ∀ later s', s.play later = some s' → ∀ tenant' (q' : Search) listed',
    q'.Lists s'.world tenant' listed' → ∀ x y,
      x ∈ listedIds listed → y ∈ listedIds listed → x ∈ listedIds listed' →
      y ∈ listedIds listed' →
      ([x, y].Sublist (listedIds listed) ↔ [x, y].Sublist (listedIds listed'))

end System

/-- However calls are interleaved, a search lists every relation that it is for, once and
in the order of creation, and answers with the pages of this list; the order stays the same
for the rest of the run. -/
theorem searches_page_in_order_of_creation {s : System} (hs : s.Reachable) (tenant : TenantBpnl)
    (q : Search) : ∃ listed, s.Searched tenant q listed := by
  obtain ⟨h, zs, hi⟩ := hs.invariant
  obtain ⟨listed, hlists, hviews⟩ := Search.exists_lists q hi.accounts.sound tenant
  refine ⟨listed, hlists, fun w hrows hledger => ?_, ?_⟩
  · have hpaged := q.paged w tenant
    rwa [Tables.ofTenant_eq_of_perm hi.accounts.sound hrows, hledger, ← hviews] at hpaged
  · intro later s' hplay tenant' q' listed' hlists' x y hx hy hx' hy'
    obtain ⟨h', zs', hi', hext, -⟩ := hi.play hplay
    obtain ⟨a, ha, rfl⟩ := List.mem_map.1 hx
    obtain ⟨b, hb, rfl⟩ := List.mem_map.1 hy
    obtain ⟨a', ha', hida⟩ := List.mem_map.1 hx'
    obtain ⟨b', hb', hidb⟩ := List.mem_map.1 hy'
    have hcreated : ∀ {a : Relation × q.View} {a' : Relation × q'.View}, a ∈ listed →
        a' ∈ listed' → a'.1.id = a.1.id → a.1.createdAt = a'.1.createdAt := fun ha ha' hid =>
      hi.accounts.createdAt_eq hi'.accounts hext ((hlists.mem _ _).1 ha).1
        ((hlists'.mem _ _).1 ha').1 hid.symm
    have horder : a.1.Precedes b.1 ↔ a'.1.Precedes b'.1 := by
      rw [Relation.Precedes, Relation.Precedes, hcreated ha ha' hida, hcreated hb hb' hidb, hida,
        hidb]
    have hhere := pair_sublist_map_iff (f := fun a => a.1.id) Relation.Precedes.asymm
      hlists.sorted hlists.eq_of_id_eq ha hb
    have hthere := pair_sublist_map_iff (f := fun a => a.1.id) Relation.Precedes.asymm
      hlists'.sorted hlists'.eq_of_id_eq ha' hb'
    rw [hida, hidb] at hthere
    exact hhere.trans (horder.trans hthere.symm)

private abbrev listedTenant : TenantBpnl := ⟨"T17", by cbv, by decide⟩
private abbrev listedName : ExternalId := ⟨"R20", by cbv, by decide⟩
private abbrev listedName' : ExternalId := ⟨"R21", by cbv, by decide⟩
private abbrev listedPartner : ExternalId := ⟨"P23", by cbv, by decide⟩
private abbrev listedPartner' : ExternalId := ⟨"P24", by cbv, by decide⟩

/-- Two relations are created by one call, at one moment; the second has the lower
identifier. -/
def twins : List Choice := List.flatten
  [[.insert (.fresh ⟨.ofNat 1⟩ listedTenant listedPartner .epoch),
      .insert (.fresh ⟨.ofNat 2⟩ listedTenant listedPartner' .epoch)],
    .arrive (.write (.batch (.create listedTenant)
      [⟨some listedName, .isManagedBy, listedPartner, listedPartner'⟩,
        ⟨some listedName', .isOwnedBy, listedPartner', listedPartner⟩])) ::
      (Choice.turns 0 5 200 ++ Choice.turns 0 14 100)]

/-- Of the two inputs, the one with the lower identifier is the whole first page. -/
theorem twins_searched : ∃ s listed p, (System.start .epoch).play twins = some s ∧
    (Search.inputs default).answer Uuid.ofNat s.world .standard listedTenant ⟨0, 1⟩ = .ok p ∧
    p.totalElements = 2 ∧ p.content.map (·.externalId) = [listedName'] ∧
    s.Searched listedTenant (.inputs default) listed := by
  have hrun : ((System.start .epoch).play twins).map (fun s =>
      (decide (∀ r ∈ s.world.tables.relations.values,
        r.tenant = listedTenant ∧ r.createdAt = .epoch),
      s.world.tables.relations.values.reverse.map (·.id.uuid.val),
      (s.world.tables.relations.values.reverse.filterMap
        ((Search.inputs default).view? s.world.ledger)).map (·.externalId))) =
      some (true, [105, 204], [listedName', listedName]) := by cbv
  obtain ⟨s, hplay, hs⟩ := Option.map_eq_some_iff.1 hrun
  obtain ⟨hall, hsorted⟩ := Prod.mk.inj hs
  obtain ⟨hids, hnames⟩ := Prod.mk.inj hsorted
  have hreach : s.Reachable := ⟨.epoch, twins, hplay⟩
  have horder : s.world.tables.ofTenant listedTenant = s.world.tables.relations.values.reverse :=
    Tables.ofTenant_of_ids (World.Reachable.sound ⟨s, hreach, rfl⟩).1 (List.reverse_perm _)
      (of_decide_eq_true hall) (List.pairwise_map.1 (hids ▸ by decide))
  obtain ⟨listed, hsearched⟩ :=
    searches_page_in_order_of_creation hreach listedTenant (.inputs default)
  obtain ⟨p, hp, hcuts, -⟩ := ((Search.inputs default).paged s.world listedTenant).page Uuid.ofNat
    .standard ⟨0, 1⟩
  rw [horder] at hcuts
  refine ⟨s, listed, p, hplay, hp, ?total, ?content, hsearched⟩
  case total => rw [hcuts.totalElements, ← List.length_map, hnames]; rfl
  case content => rw [hcuts.content_eq, List.map_take, List.map_drop, hnames]; rfl

end PartnerRelations
