/-
# `Proofs.Concurrent.Replay` — what was published tells what is stored

However calls are interleaved, no update is lost, and the published envelopes are
a faithful account of the store:

    each accepted change replaces the very relation that the call
    was shown last of its identifier, and from which it computed the change;

    when all calls have returned, the envelopes published for an identifier,
    sorted by their numbers, are numbered 1 to n, and their events applied to a
    relation that nothing has happened to give the stored relation, or a deleted
    one if none is stored.

The proof keeps one `History` for all calls and a `Standing` for each
(`System.Invariant`).  A call keeps to the protocol whatever the others do
(`ServiceCall.leads`); here the surroundings keep their side.  What was shown once
is recalled for ever; what was drawn is drawn once, so no two calls ever have the
same new identifier in hand; and everything in the history is published or owed by
exactly one call.
-/
import Mathlib.Data.List.Permutation
import PartnerRelations.Proofs.Concurrent.Landing
import PartnerRelations.Proofs.Store.History
import PartnerRelations.Proofs.Uuid

namespace PartnerRelations

/-- The envelopes of one relation. -/
def about (id : RelationId) (envelopes : List RelationEnvelope) : List RelationEnvelope :=
  envelopes.filter fun e => e.aggregateId = id

theorem about_append (id : RelationId) (envelopes envelopes' : List RelationEnvelope) :
    about id (envelopes ++ envelopes') = about id envelopes ++ about id envelopes' :=
  List.filter_append ..

/-! ## One call among the others -/

/-- A call keeps to the protocol from where it stands, what it was shown was once
so, and what it drew is new. -/
structure Follows (h : History) (drawn : List Uuid) (t : Thread) (st : Standing) : Prop where
  leads : t.rest.Leads protocol (fun _ => Protocol.Settled) st
  shown : st.shown = t.shown
  recalled : ∀ r ∈ st.shown, h.Recalls r ∧ r.created = true
  unborn : ∀ id ∈ st.fresh, h.envelopes id = []
  drew : ∀ id ∈ st.fresh, id.uuid ∈ drawn
  names : ∀ name ∈ st.names, name ∈ t.call.named ∨ ∃ x ∈ drawn, name = Key.ofUuid .externalId x

/-- From one state to the next while one call takes a turn: what the others rely
on stays, and what the call commits it publishes or owes. -/
structure Advance (drawn : List Uuid) (h : History) (w : World) (st : Standing)
    (h' : History) (w' : World) (st' : Standing) : Prop where
  extends_ : h.Extends h'
  accounts : h'.Accounts w'.tables
  born : ∀ id, h.envelopes id = [] → id ∉ st.fresh → h'.envelopes id = []
  fresh : ∀ id ∈ st'.fresh, id ∈ st.fresh ∨ id.uuid ∉ drawn
  balance : ∀ id rest, (about id (w.published ++ (st.owed ++ rest))).Perm (h.envelopes id) →
    (about id (w'.published ++ (st'.owed ++ rest))).Perm (h'.envelopes id)

/-- What enters the history is what the call owes in addition, and only an accepted
commit adds to it. -/
structure Gains (turn : Turn) (h : History) (st : Standing) (h' : History) (st' : Standing) :
    Prop where
  landed : ∀ id, h'.envelopes id = h.envelopes id ++ about id (st'.owed.drop st.owed.length)
  still : turn.granted? = none → st'.owed.drop st.owed.length = []

/-- After its turn a call keeps to the protocol, and the others notice no more than
they must. -/
def Proceeds (h : History) (drawn : List Uuid) (w : World) (st : Standing) (w' : World)
    (turn : Turn) (t : Thread) : Prop :=
  ∃ h' st', Follows h' (turn.drawn ++ drawn) t st' ∧ Advance drawn h w st h' w' st' ∧
    Gains turn h st h' st'

section Turn

variable {h h' : History} {w w' : World} {drawn drawn' : List Uuid} {t : Thread} {st st' : Standing}
  {call : ServiceCall} {asked : List Turn} {q : Query} {x : q.Answer} {id : Uuid}
  {next : q.Answer → Dialogue (Except RelationError call.Result)}

theorem Follows.recalled_mono (hf : Follows h drawn t st) (hext : h.Extends h') :
    ∀ r ∈ st.shown, h'.Recalls r ∧ r.created = true := fun r hr =>
  ⟨(hf.recalled r hr).1.mono (hf.recalled r hr).2 hext, (hf.recalled r hr).2⟩

/-- What the other calls do does not matter to one, if they draw other
identifiers. -/
theorem Follows.mono (hf : Follows h drawn t st) (hext : h.Extends h')
    (hborn : ∀ id ∈ st.fresh, h'.envelopes id = []) (hdrawn : ∀ x ∈ drawn, x ∈ drawn') :
    Follows h' drawn' t st where
  leads := hf.leads
  shown := hf.shown
  recalled := hf.recalled_mono hext
  unborn := hborn
  drew id hid := hdrawn _ (hf.drew id hid)
  names name hn := (hf.names name hn).imp_right fun ⟨x, hx, he⟩ => ⟨x, hdrawn x hx, he⟩

/-- A turn that touches neither the store nor the bus. -/
theorem advance_still (ha : h.Accounts w.tables) (htables : w'.tables = w.tables)
    (hpublished : w'.published = w.published) (howed : st'.owed = st.owed)
    (hfresh : ∀ id ∈ st'.fresh, id ∈ st.fresh ∨ id.uuid ∉ drawn) :
    Advance drawn h w st h w' st' where
  extends_ := .refl h
  accounts := htables ▸ ha
  born _ hid _ := hid
  fresh := hfresh
  balance _ _ hp := by rwa [hpublished, howed]

/-- A turn after which the call owes no more than before. -/
theorem gains_nothing {turn : Turn} (howed : st'.owed.length ≤ st.owed.length) :
    Gains turn h st h st' where
  landed id := by
    rw [List.drop_eq_nil_of_le howed]
    exact (List.append_nil _).symm
  still _ := List.drop_eq_nil_of_le howed

/-- What can be shown now may be shown. -/
theorem Follows.shows (hf : Follows h drawn t st) (ha : h.Accounts w.tables) {r : Relation}
    (hr : w.tables.relations.get? r.id = some r) : st.Shows r where
  created := (ha.stored hr).2
  stored hmem := (ha.recalls hr).envelopes_ne_nil (Relation.isCreated_iff.1 (ha.stored hr).2).1
    (hf.unborn _ hmem)
  key r' hr' hid := by
    rw [← (hf.recalled r' hr').1.name_eq, ← (ha.recalls hr).name_eq, hid]

theorem Follows.grounded (hf : Follows h drawn t st) {u : UnitOfWork}
    (hg : u.Grounded st.Read st.New) : u.Grounded (h.Read t.lastShown) h.Unborn := by
  refine hg.mono ?_ fun base hnew => ⟨hnew.1, hf.unborn _ hnew.2⟩
  intro _ _ base _ hread
  have hmem := hf.recalled base (List.mem_of_find?_eq_some hread)
  refine ⟨?_, hmem⟩
  rw [Thread.lastShown, ← hf.shown]
  exact hread

/-- A turn that takes nothing from the store but an answer, and shows nothing. -/
theorem Follows.answered (hf : Follows h drawn ⟨call, asked, .ask q next⟩ st)
    (ha : h.Accounts w.tables) (htables : w'.tables = w.tables)
    (hpublished : w'.published = w.published) (hshown : Turn.shown ⟨q, x⟩ = [])
    (hleads : (next x).Leads protocol (fun _ => Protocol.Settled) st) :
    Proceeds h drawn w st w' ⟨q, x⟩ ⟨call, ⟨q, x⟩ :: asked, next x⟩ := by
  have hmono := hf.mono (.refl h) hf.unborn fun y hy => List.mem_append_right (Turn.drawn ⟨q, x⟩) hy
  refine ⟨h, st, ⟨hleads, ?_, hf.recalled, hf.unborn, hmono.drew, hmono.names⟩,
    advance_still ha htables hpublished rfl fun id hid => .inl hid, gains_nothing (Nat.le_refl _)⟩
  rw [hf.shown, Thread.shown, Thread.shown, List.flatMap_cons, hshown, List.nil_append]

/-- What is shown is there, and remembered. -/
theorem Follows.showed (hf : Follows h drawn ⟨call, asked, .ask q next⟩ st)
    (ha : h.Accounts w.tables) (rs : List Relation)
    (hstored : ∀ r ∈ rs, w.tables.relations.get? r.id = some r) (hshown : Turn.shown ⟨q, x⟩ = rs)
    (hleads : (next x).Leads protocol (fun _ => Protocol.Settled)
      { st with shown := rs ++ st.shown }) :
    Proceeds h drawn w st w ⟨q, x⟩ ⟨call, ⟨q, x⟩ :: asked, next x⟩ := by
  have hmono := hf.mono (.refl h) hf.unborn fun y hy => List.mem_append_right (Turn.drawn ⟨q, x⟩) hy
  refine ⟨h, { st with shown := rs ++ st.shown },
    ⟨hleads, ?_, ?_, hf.unborn, hmono.drew, hmono.names⟩,
    advance_still ha rfl rfl rfl fun id hid => .inl hid, gains_nothing (Nat.le_refl _)⟩
  · rw [Thread.shown, List.flatMap_cons, hshown]
    exact congrArg _ hf.shown
  · intro r hr
    rcases List.mem_append.1 hr with hr | hr
    · exact ⟨ha.recalls (hstored r hr), (Relation.isCreated_iff.1 (ha.stored (hstored r hr)).2).1⟩
    · exact hf.recalled r hr

/-- An identifier for a relation is nobody's until now. -/
theorem Follows.drew_relation
    {next : Uuid → Dialogue (Except RelationError call.Result)}
    (hf : Follows h drawn ⟨call, asked, .ask (.freshId .relation) next⟩ st)
    (ha : h.Accounts w.tables) (hborn : ∀ id, h.envelopes id ≠ [] → id.uuid ∈ drawn)
    (hnew : id ∉ drawn) :
    Proceeds h drawn w st { w with drawn := w.drawn + 1 } ⟨.freshId .relation, id⟩
      ⟨call, ⟨.freshId .relation, id⟩ :: asked, next id⟩ := by
  have hmono := hf.mono (.refl h) hf.unborn fun y hy => List.mem_cons_of_mem id hy
  have hunborn : h.envelopes ⟨id⟩ = [] := by
    by_contra hne
    exact hnew (hborn _ hne)
  refine ⟨h, { st with fresh := ⟨id⟩ :: st.fresh }, ⟨?_, hf.shown, hf.recalled, ?_, ?_, hmono.names⟩,
    advance_still ha rfl rfl rfl ?_, gains_nothing (Nat.le_refl _)⟩
  · refine hf.leads.2 id (fun hid => hnew (hf.drew _ hid)) ?_
    intro r hr hid
    obtain ⟨hrecalls, hcreated⟩ := hf.recalled r hr
    exact hrecalls.envelopes_ne_nil hcreated (hid ▸ hunborn)
  · exact List.forall_mem_cons.2 ⟨hunborn, hf.unborn⟩
  · exact List.forall_mem_cons.2 ⟨List.mem_cons_self .., hmono.drew⟩
  · exact List.forall_mem_cons.2 ⟨.inr hnew, fun i hi => .inl hi⟩

/-- A generated name is none that the call uses. -/
theorem Follows.drew_name
    {next : Uuid → Dialogue (Except RelationError call.Result)}
    (hf : Follows h drawn ⟨call, asked, .ask (.freshId .externalId) next⟩ st)
    (ha : h.Accounts w.tables) (hnew : id ∉ drawn)
    (hunnamed : Key.ofUuid .externalId id ∉ call.named) :
    Proceeds h drawn w st { w with drawn := w.drawn + 1 } ⟨.freshId .externalId, id⟩
      ⟨call, ⟨.freshId .externalId, id⟩ :: asked, next id⟩ := by
  have hmono := hf.mono (.refl h) hf.unborn fun y hy => List.mem_cons_of_mem id hy
  refine ⟨h, { st with names := Key.ofUuid .externalId id :: st.names },
    ⟨?_, hf.shown, hf.recalled, hf.unborn, hmono.drew, ?_⟩,
    advance_still ha rfl rfl rfl fun i hi => .inl hi, gains_nothing (Nat.le_refl _)⟩
  · refine hf.leads.2 id ?_
    intro hname
    rcases hf.names _ hname with hname | ⟨y, hy, he⟩
    · exact hunnamed hname
    · exact hnew (Key.ofUuid_injective he ▸ hy)
  · exact List.forall_mem_cons.2 ⟨.inr ⟨id, List.mem_cons_self .., rfl⟩, hmono.names⟩

/-- An accepted commit enters the history, and its envelopes are owed. -/
theorem Follows.committed {changes : List RelationChange}
    {next : Except StoreError Unit → Dialogue (Except RelationError call.Result)}
    (hf : Follows h drawn ⟨call, asked, .ask (.commit changes) next⟩ st)
    (ha : h.Accounts w.tables) {tables : Tables} (hcommit : w.tables.commit changes = .ok tables) :
    Proceeds h drawn w st { w with tables } ⟨.commit changes, .ok ()⟩
      ⟨call, ⟨.commit changes, .ok ()⟩ :: asked, next (.ok ())⟩ := by
  obtain ⟨u, rfl, hg, -, hleads⟩ := hf.leads
  obtain ⟨h', ha', hext, henv, -⟩ := ha.commit (hf.grounded hg) hcommit
  refine ⟨h', { st with fresh := [], owed := st.owed ++ u.events },
    ⟨hleads, hf.shown, hf.recalled_mono hext, by simp, by simp, hf.names⟩,
    ⟨hext, ha', ?_, by simp, ?_⟩, ⟨?_, fun hnone => by cases hnone⟩⟩
  · intro i hi hfresh
    rw [henv, hi, List.nil_append]
    refine hg.envelopesOf_eq_nil ?_
    intro t ht hid
    rcases Protocol.exists_base hg ht with hmem | ⟨r, hr, hid', -⟩
    · exact hfresh (hid ▸ hmem)
    · obtain ⟨hrecalls, hcreated⟩ := hf.recalled r hr
      exact hrecalls.envelopes_ne_nil hcreated (hid'.trans hid ▸ hi)
  · intro i rest hp
    rw [henv]
    refine List.Perm.trans ?_ (hp.append_right (u.envelopesOf i))
    simp only [about_append, List.append_assoc]
    exact List.perm_append_comm.append_left _ |>.append_left _
  · intro i
    rw [List.drop_left]
    exact henv i

/-- What is published is owed no longer. -/
theorem Follows.published {envelope : RelationEnvelope}
    {next : Except String Unit → Dialogue (Except RelationError call.Result)}
    (hf : Follows h drawn ⟨call, asked, .ask (.publish envelope) next⟩ st)
    (ha : h.Accounts w.tables) :
    Proceeds h drawn w st { w with published := w.published ++ [envelope] }
      ⟨.publish envelope, .ok ()⟩
      ⟨call, ⟨.publish envelope, .ok ()⟩ :: asked, next (.ok ())⟩ := by
  obtain ⟨rest, howed, hleads⟩ := hf.leads
  refine ⟨h, { st with owed := rest }, ⟨hleads, hf.shown, hf.recalled, hf.unborn, hf.drew, hf.names⟩,
    ⟨.refl h, ha, fun _ hid _ => hid, fun _ hid => .inl hid, ?_⟩, gains_nothing ?_⟩
  · intro i more hp
    simpa [howed] using hp
  · simp [howed]

/-- A call that has its turn keeps to the protocol, and the others notice no more
than they must. -/
theorem follows_turn (hf : Follows h drawn ⟨call, asked, .ask q next⟩ st)
    (ha : h.Accounts w.tables) (hborn : ∀ id, h.envelopes id ≠ [] → id.uuid ∈ drawn)
    (hanswer : w.answer (fun _ => id) q = (x, w'))
    (hfresh : Turn.isFresh drawn call.named ⟨q, x⟩ = true) :
    Proceeds h drawn w st w' ⟨q, x⟩ ⟨call, ⟨q, x⟩ :: asked, next x⟩ := by
  cases q with
  | freshId use =>
    cases hanswer
    cases use with
    | relation => exact hf.drew_relation ha hborn (by simpa [Turn.isFresh] using hfresh)
    | externalId =>
      have hnew : id ∉ drawn ∧ Key.ofUuid .externalId id ∉ call.named := by
        simpa [Turn.isFresh] using hfresh
      exact hf.drew_name ha hnew.1 hnew.2
    | event => exact hf.answered ha rfl rfl rfl (hf.leads id)
  | findByKey key =>
    obtain ⟨hnone, hsome⟩ := hf.leads
    cases hanswer
    generalize hfind : w.tables.find? key = found
    cases found with
    | none => exact hf.answered ha rfl rfl rfl hnone
    | some r =>
      obtain ⟨hr, hkey⟩ := ha.sound.find?_eq_some.1 hfind
      exact hf.showed ha [r] (by simpa using hr) rfl (hsome r hkey (hf.shows ha hr))
  | findInState state limit =>
    cases hanswer
    have hstored := fun r (hr : r ∈ w.tables.inState state limit) => ha.sound.mem_inState hr
    exact hf.showed ha _ hstored rfl
      (hf.leads _ (fun r hr => hf.shows ha (hstored r hr)) ha.sound.nodup_inState)
  | commit changes =>
    cases hcommit : w.tables.commit changes with
    | error e =>
      simp only [World.answer, hcommit] at hanswer
      cases hanswer
      obtain ⟨-, -, -, herr, -⟩ := hf.leads
      exact hf.answered ha rfl rfl rfl (herr e)
    | ok tables =>
      simp only [World.answer, hcommit] at hanswer
      cases hanswer
      exact hf.committed ha hcommit
  | publish envelope =>
    cases hanswer
    exact hf.published ha
  | _ =>
    cases hanswer
    exact hf.answered ha rfl rfl rfl (hf.leads _)

end Turn

/-! ## All calls together -/

/-- One history for all, and what each call has in hand: together they account for
the store and for everything published. -/
structure System.Invariant (s : System) (h : History) (zs : List (Thread × Standing)) : Prop where
  threads : s.threads = zs.map Prod.fst
  follows : ∀ z ∈ zs, Follows h s.drawn z.1 z.2
  apart : zs.Pairwise fun a b => ∀ id ∈ a.2.fresh, id ∉ b.2.fresh
  accounts : h.Accounts s.world.tables
  born : ∀ id, h.envelopes id ≠ [] → id.uuid ∈ s.drawn
  balance : ∀ id, (about id (s.world.published ++ zs.flatMap fun z => z.2.owed)).Perm
    (h.envelopes id)

namespace System

variable {s s' : System} {h : History} {zs : List (Thread × Standing)}

theorem invariant_start (clock : Instant) : (start clock).Invariant .empty [] where
  threads := rfl
  follows := by simp
  apart := .nil
  accounts := History.accounts_empty
  born _ hne := absurd rfl hne
  balance _ := .refl _

/-- A call that arrives has nothing in hand. -/
theorem Invariant.arrive (hi : s.Invariant h zs) (c : ServiceCall) :
    Invariant { s with threads := s.threads ++ [.start c] } h
      (zs ++ [(.start c, .start c.named)]) where
  threads := by rw [hi.threads, List.map_append]; rfl
  follows z hz := by
    rcases List.mem_append.1 hz with hz | hz
    · exact hi.follows z hz
    · obtain rfl := List.mem_singleton.1 hz
      refine ⟨Program.leads_mono ?_ c.leads, rfl, by simp [Standing.start], by simp [Standing.start],
        by simp [Standing.start], fun name hn => .inl hn⟩
      rintro (e | a) st hst <;> exact hst
  apart := by
    rw [List.pairwise_append]
    exact ⟨hi.apart, by simp, by simp [Standing.start]⟩
  accounts := hi.accounts
  born := hi.born
  balance id := by simpa [Standing.start] using hi.balance id

/-- After a step the books are kept, and the commit that it was is entered. -/
def Entered (s s' : System) (c : Choice) (h h' : History) : Prop :=
  h.Extends h' ∧ ∀ id, h'.envelopes id =
    h.envelopes id ++ about id ((s.landing? s' c).toList.flatMap (·.events))

theorem Invariant.turn (hi : s.Invariant h zs) {i : Nat} {id : Uuid}
    (hstep : s.step (.turn i id) = some s') :
    ∃ h' zs', s'.Invariant h' zs' ∧ Entered s s' (.turn i id) h h' := by
  obtain ⟨before, call, asked, q, next, after, x, world, hlength, hthreads, hanswer, hfresh, rfl⟩ :=
    step_turn_eq_some hstep
  have hlanding : landing? s ⟨world, before ++ ⟨call, ⟨q, x⟩ :: asked, next x⟩ :: after,
      Turn.drawn ⟨q, x⟩ ++ s.drawn⟩ (.turn i id) = _ := landing?_turn hlength hthreads rfl
  -- the call that has its turn, with what it has in hand
  obtain ⟨zb, zs', rfl, rfl, hrest⟩ := List.map_eq_append_iff.1 (hthreads ▸ hi.threads).symm
  obtain ⟨⟨t, st⟩, za, rfl, rfl, rfl⟩ := List.map_eq_cons_iff.1 hrest
  have hmem : ∀ z ∈ zb ++ za, z ∈ zb ++ (⟨call, asked, .ask q next⟩, st) :: za := by
    intro z hz
    rw [List.mem_append, List.mem_cons]
    exact (List.mem_append.1 hz).imp_right .inr
  have hft := hi.follows _ (List.mem_append_right zb (List.mem_cons_self ..))
  obtain ⟨hothers, hrest⟩ := List.pairwise_cons.1
    ((List.pairwise_middle fun {a b} hab id hb ha => hab id ha hb).1 hi.apart)
  obtain ⟨h', st', hft', hadv, hgains⟩ := follows_turn hft hi.accounts hi.born hanswer hfresh
  refine ⟨h', zb ++ (⟨call, ⟨q, x⟩ :: asked, next x⟩, st') :: za, ⟨by simp, fun z hz => ?_, ?_,
    hadv.accounts, fun id hne => List.mem_append_right _ ?_, fun id => ?_⟩, hadv.extends_, ?_⟩
  · rw [List.mem_append, List.mem_cons, or_left_comm, ← List.mem_append] at hz
    rcases hz with rfl | hz
    · exact hft'
    · have hf := hi.follows z (hmem z hz)
      exact hf.mono hadv.extends_ (fun id hid => hadv.born id (hf.unborn id hid)
        fun hid' => hothers z hz id hid' hid) fun x hx => List.mem_append_right _ hx
  · refine (List.pairwise_middle fun {a b} hab id hb ha => hab id ha hb).2
      (List.pairwise_cons.2 ⟨?_, hrest⟩)
    intro z hz id hid hid'
    rcases hadv.fresh id hid with hold | hnew
    · exact hothers z hz id hold hid'
    · exact hnew ((hi.follows z (hmem z hz)).drew id hid')
  · by_cases hold : h.envelopes id = []
    · by_contra hdrawn
      exact hne (hadv.born id hold fun hid => hdrawn (hft.drew id hid))
    · exact hi.born id hold
  · have hperm : ∀ own : List RelationEnvelope, ∀ published : List RelationEnvelope,
        (about id (published ++ (zb.flatMap (·.2.owed) ++ (own ++ za.flatMap (·.2.owed))))).Perm
          (about id (published ++ (own ++ (zb.flatMap (·.2.owed) ++ za.flatMap (·.2.owed))))) :=
      fun own published => ((List.perm_append_comm_assoc ..).append_left published).filter _
    have hbal := hi.balance id
    rw [List.flatMap_append, List.flatMap_cons] at hbal ⊢
    exact (hperm _ _).trans (hadv.balance id _ ((hperm _ _).symm.trans hbal))
  · have hevents : ((Turn.granted? ⟨q, x⟩).map fun changes => Landing.mk i changes s.world.tables
        ((dues (next x)).drop (dues (.ask q next)).length)).toList.flatMap (·.events) =
        st'.owed.drop st.owed.length := by
      rw [dues_of_leads hft.leads, dues_of_leads hft'.leads]
      cases hg : Turn.granted? ⟨q, x⟩ with
      | none => exact (hgains.still hg).symm
      | some changes => simp
    intro id'
    rw [hlanding, hevents]
    exact hgains.landed id'

/-- Every step keeps the books. -/
theorem Invariant.step {c : Choice} (hi : s.Invariant h zs) (hstep : s.step c = some s') :
    ∃ h' zs', s'.Invariant h' zs' ∧ Entered s s' c h h' := by
  have hidle : ∀ {s' : System}, s.landing? s' c = none → Entered s s' c h h := fun hnone =>
    ⟨.refl h, fun id => by rw [hnone]; exact (List.append_nil _).symm⟩
  cases c with
  | arrive c =>
    cases hstep
    exact ⟨h, _, hi.arrive c, hidle rfl⟩
  | turn i id => exact hi.turn hstep
  | _ =>
    cases hstep
    exact ⟨h, zs, ⟨hi.threads, hi.follows, hi.apart, hi.accounts, hi.born, hi.balance⟩, hidle rfl⟩

theorem Reachable.invariant (hs : s.Reachable) : ∃ h zs, s.Invariant h zs :=
  hs.induction (P := fun s => ∃ h zs, s.Invariant h zs)
    (fun clock => ⟨_, _, invariant_start clock⟩) fun ⟨_, _, hi⟩ hstep =>
      let ⟨h', zs', hi', _⟩ := hi.step hstep
      ⟨h', zs', hi'⟩

/-- The tables of the store agree, and what it shows is there. -/
theorem Invariant.sound (hi : s.Invariant h zs) : s.world.tables.Sound ∧ s.world.tables.Live :=
  ⟨hi.accounts.sound, fun hr =>
    (hi.accounts.stored (hi.accounts.sound.find?_eq_some.1 hr).1).2⟩

/-- A call that is about to commit has a unit of work that starts from what it was shown. -/
theorem Invariant.exists_unit (hi : s.Invariant h zs) {t : Thread} (ht : t ∈ s.threads)
    {changes : List RelationChange} (hoffer : t.offer = some changes) :
    ∃ u : UnitOfWork, u.changes = changes ∧ u.Grounded (h.Read t.lastShown) h.Unborn := by
  obtain ⟨⟨t, st⟩, hz, rfl⟩ := List.mem_map.1 (hi.threads ▸ ht)
  have hf := hi.follows _ hz
  obtain ⟨next, hrest⟩ := Thread.exists_of_offer_eq_some hoffer
  have hleads := hf.leads
  rw [hrest] at hleads
  obtain ⟨u, hu, hg, -⟩ := hleads
  exact ⟨u, hu, hf.grounded hg⟩

/-- A call that is about to commit has changes that replace what it was shown. -/
theorem Invariant.replaces (hi : s.Invariant h zs) {t : Thread} (ht : t ∈ s.threads)
    {changes : List RelationChange} (hoffer : t.offer = some changes) {tables : Tables}
    (hcommit : s.world.tables.commit changes = .ok tables) :
    ∀ c ∈ changes, c.Replaces t.lastShown s.world.tables tables := by
  obtain ⟨u, rfl, hg⟩ := hi.exists_unit ht hoffer
  obtain ⟨-, -, -, -, hreplaces⟩ := hi.accounts.commit hg hcommit
  exact hreplaces

/-- When all calls have returned, everything that happened is published. -/
theorem Invariant.published (hi : s.Invariant h zs) (hfinished : s.Finished) (id : RelationId) :
    (about id s.world.published).Perm (h.envelopes id) := by
  have howed : zs.flatMap (fun z => z.2.owed) = [] := by
    refine List.flatMap_eq_nil_iff.2 ?_
    intro z hz
    obtain ⟨outcome, hrest⟩ := Thread.exists_of_isFinished
      (hfinished z.1 (hi.threads ▸ List.mem_map_of_mem hz))
    have hleads := (hi.follows z hz).leads
    rw [hrest] at hleads
    exact hleads
  simpa [howed] using hi.balance id

end System

/-- Wherever interleaved calls lead, the tables of the store agree, and what it
shows is there. -/
theorem World.Reachable.sound {w : World} (hw : w.Reachable) :
    w.tables.Sound ∧ w.tables.Live := by
  obtain ⟨s, hs, rfl⟩ := hw
  obtain ⟨h, zs, hi⟩ := hs.invariant
  exact hi.sound

/-! ## The published account -/

/-- The published envelopes of a relation in the order of their numbers. -/
def retold (published : List RelationEnvelope) (id : RelationId) : List RelationEnvelope :=
  (about id published).mergeSort fun a b => decide (a.sequenceNumber ≤ b.sequenceNumber)

/-- What was published of a relation tells what is stored of it: the envelopes are
numbered without gap, and their events lead to the stored relation, or to a deleted
one. -/
structure Retells (published : List RelationEnvelope) (t : Tables) (id : RelationId) : Prop where
  numbers : (retold published id).map (·.sequenceNumber) =
    List.range' 1 (retold published id).length
  stored : ∀ r, t.relations.get? id = some r →
    (Relation.empty id r.tenant r.externalId).applyAll ((retold published id).map (·.payload)) = r
  gone : t.relations.get? id = none → retold published id ≠ [] → ∀ tenant externalId,
    ((Relation.empty id tenant externalId).applyAll
      ((retold published id).map (·.payload))).deleted = true

/-- Sorting by number brings back the order of the commits. -/
theorem retold_eq {h : History} {t : Tables} (ha : h.Accounts t)
    {published : List RelationEnvelope} {id : RelationId}
    (hperm : (about id published).Perm (h.envelopes id)) : retold published id = h.envelopes id := by
  have hsorted : (h.envelopes id).Pairwise fun a b => a.sequenceNumber ≤ b.sequenceNumber := by
    rw [← List.pairwise_map (f := EventEnvelope.sequenceNumber), ha.numbers]
    exact List.pairwise_le_range' _
  have hnodup : ((h.envelopes id).map (·.sequenceNumber)).Nodup := by
    rw [ha.numbers]
    exact List.nodup_range'
  have hretold := (List.mergeSort_perm (about id published)
    fun a b => decide (a.sequenceNumber ≤ b.sequenceNumber)).trans hperm
  refine List.Perm.eq_of_pairwise ?_ ?_ hsorted hretold
  · intro a b hmem hmem' hab hba
    exact List.inj_on_of_nodup_map hnodup (hretold.mem_iff.1 hmem) hmem' (Nat.le_antisymm hab hba)
  · have := @List.pairwise_mergeSort RelationEnvelope
      (fun a b => decide (a.sequenceNumber ≤ b.sequenceNumber))
      (by simpa using fun a b c => Nat.le_trans) (by simpa using fun a b => Nat.le_total _ _)
      (about id published)
    simpa [retold] using this

theorem retells {h : History} {t : Tables} (ha : h.Accounts t) {published : List RelationEnvelope}
    {id : RelationId} (hperm : (about id published).Perm (h.envelopes id)) :
    Retells published t id := by
  refine ⟨?_, fun r hr => ?_, fun hnone hne tenant externalId => ?_⟩ <;> rw [retold_eq ha hperm] at *
  · exact ha.numbers id
  · have hid := ha.sound.id_eq hr
    subst hid
    exact (ha.arrives hr).eq.symm
  · have hdeleted := (ha.gone hnone).resolve_left hne
    rw [History.current, Relation.deleted_applyAll] at hdeleted
    exact Relation.deleted_applyAll.2 hdeleted

/-- However calls are interleaved, each accepted change replaces the relation that
it was computed from, and when all calls have returned, the published envelopes
tell what is stored. -/
theorem interleaved_calls_replay {s : System} (hs : s.Reachable) :
    (∀ t ∈ s.threads, ∀ changes ∈ t.offer, ∀ tables,
      s.world.tables.commit changes = .ok tables →
        ∀ c ∈ changes, c.Replaces t.lastShown s.world.tables tables) ∧
    (s.Finished → ∀ id, Retells s.world.published s.world.tables id) := by
  obtain ⟨h, zs, hi⟩ := hs.invariant
  exact ⟨fun t ht changes hoffer tables hcommit => hi.replaces ht hoffer hcommit,
    fun hfinished id => retells hi.accounts (hi.published hfinished id)⟩

private abbrev raceTenant : TenantBpnl := ⟨"T2", by cbv, by decide⟩
private abbrev raceName : ExternalId := ⟨"R3", by cbv, by decide⟩
private abbrev racePartner : ExternalId := ⟨"P3", by cbv, by decide⟩
private abbrev racePartner' : ExternalId := ⟨"P4", by cbv, by decide⟩

/-- Two upserts of one name.  Both find it free; the first one commits, so the
second one is refused, starts over and updates what the first one created. -/
def race : List Choice :=
  [.insert (.fresh ⟨.ofNat 1⟩ raceTenant racePartner .epoch),
    .insert (.fresh ⟨.ofNat 2⟩ raceTenant racePartner' .epoch),
    .arrive (.write (.batch (.upsert .standard raceTenant)
      [⟨raceName, .isManagedBy, racePartner, racePartner'⟩])),
    .arrive (.write (.batch (.upsert .standard raceTenant)
      [⟨raceName, .isOwnedBy, racePartner, racePartner'⟩]))] ++
  (List.range 7).map (fun n => .turn 1 (.ofNat n)) ++
  (List.range 11).map (fun n => .turn 0 (.ofNat (n + 100))) ++
  (List.range 14).map (fun n => .turn 1 (.ofNat (n + 200)))

/-- The race up to the commit of the update, and after its end. -/
theorem race_replayed : ∃ s s' : System, (System.start .epoch).play (race.take 30) = some s ∧
    (System.start .epoch).play race = some s' ∧
    (∃ t ∈ s.threads, ∃ changes ∈ t.offer, ∃ tables, s.world.tables.commit changes = .ok tables ∧
      changes ≠ [] ∧ ∀ c ∈ changes, c.Replaces t.lastShown s.world.tables tables) ∧
    s'.Finished ∧ s'.world.published.length = 3 ∧
      ∀ id, Retells s'.world.published s'.world.tables id := by
  have hsome : ((System.start .epoch).play (race.take 30)).isSome = true := by rfl
  have hsome' : ((System.start .epoch).play race).isSome = true := by rfl
  let s := ((System.start .epoch).play (race.take 30)).get hsome
  let s' := ((System.start .epoch).play race).get hsome'
  have hs : (System.start .epoch).play (race.take 30) = some s := (Option.some_get hsome).symm
  have hs' : (System.start .epoch).play race = some s' := (Option.some_get hsome').symm
  have hfinished : s'.Finished := List.all_eq_true.1 (by rfl : s'.threads.all Thread.isFinished = true)
  let t := s.threads.get ⟨1, (by decide : 1 < 2)⟩
  have hoffers : t.offer.isSome = true := by rfl
  let changes := t.offer.get hoffers
  have hoffer : t.offer = some changes := (Option.some_get hoffers).symm
  obtain ⟨tables, hcommit⟩ : ∃ tables, s.world.tables.commit changes = .ok tables := ⟨_, rfl⟩
  have hne : changes ≠ [] := by
    intro hnil
    have hempty : changes.isEmpty = false := by rfl
    rw [hnil] at hempty
    cases hempty
  exact ⟨s, s', hs, hs', ⟨t, List.get_mem .., changes, hoffer, tables, hcommit, hne,
    (interleaved_calls_replay ⟨.epoch, _, hs⟩).1 t (List.get_mem ..) changes hoffer tables hcommit⟩,
    hfinished, by rfl, (interleaved_calls_replay ⟨.epoch, _, hs'⟩).2 hfinished⟩

end PartnerRelations
