/-
# `Proofs.Event.Delivery` — every subscription gets what was published since it began

A history is a list of deeds: what was done with one bus, and what came of it.  Deeds come
in any order and from anybody (`Run`); only a receiver that waits without end needs a message
or a closed bus to come back, and nobody publishes on a bus that is gone, or receives for a
subscription that was dropped.  After every history

    publishing   has always succeeded
    delivery     what a subscription has received, followed by what it has queued, is what was
                 published since it began, in that order and each message once
    the end      on a closed bus the queue comes out in order, and after it the news that
                 nobody sends; no subscription has had that news sooner

The bus strikes dropped subscriptions from its list only when it publishes, so the list and
the subscriptions differ most of the time.  What carries the delivery is that the list of an open
bus lacks no subscription that is held and names none twice (`Upheld`).
-/
import Mathlib.Data.List.Nodup
import PartnerRelations.Event.Bus

namespace PartnerRelations

namespace Bus

variable {μ : Type} {b b' : Bus μ} {n k : Nat} {message : μ}

/-! ## Sending -/

@[simp] theorem number_push (s : Subscription μ) (message : μ) :
    (s.push message).number = s.number := rfl

/-- Messages go to queues, and no subscription comes or goes with them. -/
theorem any_number_map {p : Subscription μ → Prop} [DecidablePred p]
    {subscriptions : List (Subscription μ)} :
    ((subscriptions.map fun s => if p s then s.push message else s).any (·.number == n)) =
      subscriptions.any (·.number == n) := by
  rw [List.any_map]
  refine congrArg subscriptions.any (funext fun s => ?_)
  by_cases hs : p s <;> simp [hs]

/-- Sending to one subscription after the other sends to each of them once, and strikes those
that are not held. -/
theorem sendAll_eq {senders : List Nat} (h : senders.Nodup) (subscriptions : List (Subscription μ)) :
    sendAll message senders subscriptions =
      (senders.filter fun n => subscriptions.any (·.number == n),
        subscriptions.map fun s => if s.number ∈ senders then s.push message else s) := by
  induction senders generalizing subscriptions with
  | nil => simp [sendAll]
  | cons n rest ih =>
    obtain ⟨hn, hrest⟩ := List.nodup_cons.1 h
    cases hheld : subscriptions.any (·.number == n) with
    | false =>
      have hstruck : (n :: rest).filter (fun n => subscriptions.any (·.number == n)) =
          rest.filter fun n => subscriptions.any (·.number == n) :=
        List.filter_cons_of_neg (by simp [hheld])
      rw [sendAll, send, hheld, if_neg (by decide), ih hrest, hstruck]
      refine congrArg (Prod.mk _) (List.map_congr_left fun s hs => ?_)
      have hne : s.number ≠ n := by simpa using List.any_eq_false.1 hheld s hs
      simp [hne]
    | true =>
      have hkept : (n :: rest).filter (fun n => subscriptions.any (·.number == n)) =
          n :: rest.filter fun n => subscriptions.any (·.number == n) :=
        List.filter_cons_of_pos hheld
      rw [sendAll, send, hheld, if_pos rfl]
      simp only [ih hrest, any_number_map, List.map_map, hkept]
      refine congrArg (Prod.mk _) (List.map_congr_left fun s _ => ?_)
      by_cases hs : s.number = n
      · simp [hs, hn]
      · simp [hs]

/-! ## Queues -/

/-- The numbers of the subscriptions that are held. -/
def numbers (b : Bus μ) : List Nat :=
  b.subscriptions.map (·.number)

/-- A subscription is told by its number. -/
theorem queued_of_mem (h : b.numbers.Nodup) {s : Subscription μ} (hs : s ∈ b.subscriptions) :
    b.queued s.number = s.queue := by
  have hfind : b.subscriptions.find? (fun t => t.number = s.number) = some s := by
    obtain ⟨t, ht⟩ : ∃ t, b.subscriptions.find? (fun t => t.number = s.number) = some t := by
      rw [← Option.isSome_iff_exists, List.find?_isSome]
      exact ⟨s, hs, by simp⟩
    have hnumber : t.number = s.number := by simpa using List.find?_some ht
    rw [ht, List.inj_on_of_nodup_map h (List.mem_of_find?_eq_some ht) hs hnumber]
  rw [queued, hfind]
  rfl

theorem mem_setQueue {queue : List μ} {s : Subscription μ}
    (h : s ∈ (b.setQueue n queue).subscriptions) :
    (s.number = n ∧ s.queue = queue) ∨ (s.number ≠ n ∧ s ∈ b.subscriptions) := by
  obtain ⟨t, ht, rfl⟩ := List.mem_map.1 h
  split
  · next hnumber => exact .inl ⟨hnumber, rfl⟩
  · next hnumber => exact .inr ⟨hnumber, ht⟩

theorem numbers_setQueue {queue : List μ} : (b.setQueue n queue).numbers = b.numbers := by
  rw [numbers, setQueue, List.map_map]
  refine List.map_congr_left fun s _ => ?_
  by_cases hs : s.number = n <;> simp [hs]

/-! ## Deeds and histories -/

/-- How long a receiver waits for a message. -/
inductive Patience where
  | none
  | limited
  | unlimited
deriving DecidableEq, Repr

/-- What was done with a bus, and what came of it. -/
inductive Deed (μ : Type) where
  | subscribed (number : Nat)
  | published (message : μ) (outcome : Except PublishError Unit)
  | dropped (number : Nat)
  | received (number : Nat) (patience : Patience) (outcome : Except ReceiveError μ)
  | drained (number : Nat) (messages : List μ)
  | closed

/-- A deed and the bus after it. -/
inductive Step (b : Bus μ) : Deed μ → Bus μ → Prop where
  | subscribe : b.isOpen = true → Step b (.subscribed b.next) b.subscribe.2
  | publish (message : μ) : b.isOpen = true →
      Step b (.published message ((b.tryPublish message).map fun _ => ())) (b.publish message)
  | drop {n : Nat} : n ∈ b.numbers → Step b (.dropped n) (b.unsubscribe n)
  /-- Who waits without end does not come back without news. -/
  | receive {n : Nat} (patience : Patience) : n ∈ b.numbers →
      (patience = .unlimited → (b.receive n).1 ≠ .error .empty) →
      Step b (.received n patience (b.receive n).1) (b.receive n).2
  | drain {n : Nat} : n ∈ b.numbers → Step b (.drained n (b.drain n).1) (b.drain n).2
  | close : b.isOpen = true → Step b .closed b.close

/-- What was done with a bus since it was new, oldest first, and the bus now. -/
inductive Run : List (Deed μ) → Bus μ → Prop where
  | start : Run [] .empty
  | step {history : List (Deed μ)} {b b' : Bus μ} {deed : Deed μ} :
      Run history b → Step b deed b' → Run (history ++ [deed]) b'

/-- What was done up to a deed was a history of its own. -/
theorem Run.exists_step {before after : List (Deed μ)} {deed : Deed μ}
    (h : Run (before ++ deed :: after) b) : ∃ b₀ b₁, Run before b₀ ∧ Step b₀ deed b₁ := by
  generalize hall : before ++ deed :: after = history at h
  induction h generalizing after with
  | start => simp at hall
  | step hrun hstep ih =>
    rcases after.eq_nil_or_concat' with rfl | ⟨after, last, rfl⟩
    · obtain ⟨rfl, hlast⟩ := List.append_inj' hall rfl
      cases hlast
      exact ⟨_, _, hrun, hstep⟩
    · rw [← List.cons_append, ← List.append_assoc] at hall
      exact ih (List.append_inj' hall rfl).1

namespace Deed

/-- The message that was published. -/
def message? : Deed μ → Option μ
  | published message _ => some message
  | _ => none

/-- The messages that a subscription got. -/
def gained (n : Nat) : Deed μ → List μ
  | received number _ (.ok message) => if number = n then [message] else []
  | drained number messages => if number = n then messages else []
  | _ => []

end Deed

/-- The messages that were published, in order. -/
def messages (history : List (Deed μ)) : List μ :=
  history.filterMap Deed.message?

/-- The messages that a subscription got, in order. -/
def receipts (n : Nat) (history : List (Deed μ)) : List μ :=
  history.flatMap (Deed.gained n)

/-- What was done after a subscription began. -/
def since (n : Nat) : List (Deed μ) → List (Deed μ)
  | [] => []
  | .subscribed number :: rest => if number = n then rest else since n rest
  | _ :: rest => since n rest

variable {history : List (Deed μ)} {deed : Deed μ} {s s' : Subscription μ}

theorem since_concat (h : .subscribed n ∈ history) :
    since n (history ++ [deed]) = since n history ++ [deed] := by
  induction history with
  | nil => cases h
  | cons first rest ih =>
    cases first with
    | subscribed number =>
      by_cases hnumber : number = n
      · simp [since, hnumber]
      · have hrest : .subscribed n ∈ rest := by simpa [Ne.symm hnumber] using h
        simpa [since, hnumber] using ih hrest
    | _ =>
      have hrest : .subscribed n ∈ rest := by simpa using h
      exact ih hrest

theorem since_subscribed (h : .subscribed n ∉ history) :
    since n (history ++ [.subscribed n]) = [] := by
  induction history with
  | nil => simp [since]
  | cons first rest ih =>
    obtain ⟨hfirst, hrest⟩ := not_or.1 (mt List.mem_cons.2 h)
    cases first with
    | subscribed number =>
      have hnumber : number ≠ n := fun heq => hfirst (by rw [heq])
      simpa [since, hnumber] using ih hrest
    | _ => exact ih hrest

/-! ## What every deed upholds -/

/-- The list of the bus fits the subscriptions: one that is held is on the list of an open bus,
and a closed bus has no list. -/
structure Sound (b : Bus μ) : Prop where
  sane : b.poisoned = false
  nodup : b.numbers.Nodup
  lt_next : ∀ n ∈ b.numbers, n < b.next
  nodup_senders : b.senders.Nodup
  senders_lt : ∀ n ∈ b.senders, n < b.next
  listed : b.isOpen = true → b.numbers ⊆ b.senders
  silent : b.isOpen = false → b.senders = []

theorem sound_empty : (empty : Bus μ).Sound where
  sane := rfl
  nodup := List.nodup_nil
  lt_next _ h := by cases h
  nodup_senders := List.nodup_nil
  senders_lt _ h := by cases h
  listed _ := List.nil_subset _
  silent _ := rfl

/-- Queues have no part in soundness. -/
theorem Sound.setQueue (h : b.Sound) (queue : List μ) : (b.setQueue n queue).Sound where
  sane := h.sane
  nodup := numbers_setQueue (b := b) ▸ h.nodup
  lt_next := numbers_setQueue (b := b) ▸ h.lt_next
  nodup_senders := h.nodup_senders
  senders_lt := h.senders_lt
  listed := numbers_setQueue (b := b) ▸ h.listed
  silent := h.silent

theorem Sound.subscribe (h : b.Sound) (hopen : b.isOpen = true) : b.subscribe.2.Sound := by
  have hnumbers : b.subscribe.2.numbers = b.numbers ++ [b.next] := by simp [numbers, Bus.subscribe]
  have hsenders : b.subscribe.2.senders = b.senders ++ [b.next] := by simp [Bus.subscribe, h.sane]
  have hnext : b.subscribe.2.next = b.next + 1 := rfl
  have hnodup {l : List Nat} (hl : l.Nodup) (hlt : ∀ n ∈ l, n < b.next) : (l ++ [b.next]).Nodup := by
    refine List.nodup_append.2 ⟨hl, List.nodup_singleton _, fun n hn k hk => ?_⟩
    rw [List.mem_singleton.1 hk]
    exact Nat.ne_of_lt (hlt n hn)
  have hlt {l : List Nat} (hlt : ∀ n ∈ l, n < b.next) : ∀ n ∈ l ++ [b.next], n < b.next + 1 := by
    intro n hn
    rcases List.mem_append.1 hn with hn | hn
    · exact Nat.lt_succ_of_lt (hlt n hn)
    · exact List.mem_singleton.1 hn ▸ Nat.lt_succ_self _
  exact
    { sane := h.sane
      nodup := hnumbers ▸ hnodup h.nodup h.lt_next
      lt_next := by rw [hnumbers, hnext]; exact hlt h.lt_next
      nodup_senders := hsenders ▸ hnodup h.nodup_senders h.senders_lt
      senders_lt := by rw [hsenders, hnext]; exact hlt h.senders_lt
      listed := fun _ => by
        rw [hnumbers, hsenders]
        exact List.append_subset.2 ⟨fun n hn => List.mem_append_left _ (h.listed hopen hn),
          List.subset_append_right ..⟩
      silent := fun hclosed => by cases hopen.symm.trans hclosed }

/-- A bus that is sound publishes, and sends the message to every subscription on its list. -/
theorem Sound.tryPublish_eq (h : b.Sound) (message : μ) : b.tryPublish message = .ok
    { b with
      senders := b.senders.filter fun n => b.subscriptions.any (·.number == n)
      subscriptions := b.subscriptions.map fun s =>
        if s.number ∈ b.senders then s.push message else s } := by
  rw [tryPublish, h.sane, if_neg (by decide), sendAll_eq h.nodup_senders]

theorem Sound.publish_eq (h : b.Sound) (message : μ) : b.publish message =
    { b with
      senders := b.senders.filter fun n => b.subscriptions.any (·.number == n)
      subscriptions := b.subscriptions.map fun s =>
        if s.number ∈ b.senders then s.push message else s } := by
  rw [publish, h.tryPublish_eq]
  rfl

theorem Sound.numbers_publish (h : b.Sound) : (b.publish message).numbers = b.numbers := by
  rw [h.publish_eq, numbers, List.map_map]
  refine List.map_congr_left fun s _ => ?_
  by_cases hs : s.number ∈ b.senders <;> simp [hs]

theorem Sound.publish (h : b.Sound) (message : μ) : (b.publish message).Sound := by
  have hsenders : (b.publish message).senders =
      b.senders.filter fun n => b.subscriptions.any (·.number == n) := by
    rw [h.publish_eq]
  have hnext : (b.publish message).next = b.next := by rw [h.publish_eq]
  have hopen : (b.publish message).isOpen = b.isOpen := by rw [h.publish_eq]
  exact
    { sane := by rw [h.publish_eq]; exact h.sane
      nodup := h.numbers_publish ▸ h.nodup
      lt_next := by rw [h.numbers_publish, hnext]; exact h.lt_next
      nodup_senders := hsenders ▸ h.nodup_senders.filter _
      senders_lt := by
        rw [hsenders, hnext]
        exact fun n hn => h.senders_lt n (List.mem_filter.1 hn).1
      listed := fun hb n hn => by
        rw [h.numbers_publish] at hn
        rw [hsenders, List.mem_filter]
        refine ⟨h.listed (hopen ▸ hb) hn, ?_⟩
        obtain ⟨s, hs, rfl⟩ := List.mem_map.1 hn
        exact List.any_eq_true.2 ⟨s, hs, by simp⟩
      silent := fun hb => by rw [hsenders, h.silent (hopen ▸ hb)]; rfl }

theorem Sound.unsubscribe (h : b.Sound) (n : Nat) : (b.unsubscribe n).Sound := by
  have hsublist : (b.unsubscribe n).numbers.Sublist b.numbers := List.filter_sublist.map _
  exact
    { h with
      nodup := h.nodup.sublist hsublist
      lt_next := fun k hk => h.lt_next k (hsublist.subset hk)
      listed := fun hopen k hk => h.listed hopen (hsublist.subset hk) }

theorem Sound.close (h : b.Sound) : b.close.Sound where
  sane := h.sane
  nodup := h.nodup
  lt_next := h.lt_next
  nodup_senders := List.nodup_nil
  senders_lt _ hn := by cases hn
  listed hopen := by cases hopen
  silent _ := rfl

/-- What a subscription receives is the head of its queue, and news of the end only from a bus
that is closed. -/
theorem Sound.receive_eq (h : b.Sound) (hs : s ∈ b.subscriptions) : b.receive s.number =
    match s.queue with
    | message :: rest => (.ok message, b.setQueue s.number rest)
    | [] => (.error (if b.isOpen then .empty else .disconnected), b) := by
  have hsender : s.number ∈ b.senders ↔ b.isOpen = true := by
    cases hopen : b.isOpen with
    | true => exact iff_of_true (h.listed hopen (List.mem_map_of_mem hs)) rfl
    | false => simp [h.silent hopen]
  rw [receive, queued_of_mem h.nodup hs]
  cases s.queue with
  | nil => simp only [hsender]
  | cons message rest => rfl

theorem Step.sound (h : b.Sound) (hstep : Step b deed b') : b'.Sound := by
  cases hstep with
  | subscribe hopen => exact h.subscribe hopen
  | publish message => exact h.publish message
  | drop => exact h.unsubscribe _
  | drain => exact h.setQueue _
  | close => exact h.close
  | receive _ hn =>
    obtain ⟨s, hs, rfl⟩ := List.mem_map.1 hn
    rw [h.receive_eq hs]
    cases s.queue with
    | nil => exact h
    | cons message rest => exact h.setQueue rest

/-- A subscription that began in a history, and was served since. -/
structure Served (history : List (Deed μ)) (s : Subscription μ) : Prop where
  begun : .subscribed s.number ∈ history
  delivered : receipts s.number history ++ s.queue = messages (since s.number history)

/-- A deed that takes from the queue what it gains, and puts to it what it publishes, serves. -/
theorem Served.after (h : Served history s) (hnumber : s'.number = s.number)
    (hqueue : deed.gained s.number ++ s'.queue = s.queue ++ deed.message?.toList) :
    Served (history ++ [deed]) s' where
  begun := List.mem_append_left _ (hnumber ▸ h.begun)
  delivered := by
    have hmessages : messages (since s.number history ++ [deed]) =
        messages (since s.number history) ++ deed.message?.toList := by
      rw [messages, List.filterMap_append]
      cases hm : deed.message? <;> simp [messages, hm]
    have hreceipts : receipts s.number (history ++ [deed]) =
        receipts s.number history ++ deed.gained s.number := by
      simp [receipts]
    rw [hnumber, since_concat h.begun, hmessages, hreceipts, ← h.delivered,
      List.append_assoc, hqueue, List.append_assoc]

/-- A deed that is nothing to a subscription leaves it served. -/
theorem Served.still (h : Served history s) (hgained : deed.gained s.number = [])
    (hmessage : deed.message? = none) : Served (history ++ [deed]) s :=
  h.after rfl (by rw [hgained, hmessage, Option.toList_none, List.nil_append, List.append_nil])

/-- Who takes the first messages out of a queue, and them only, serves every subscription. -/
theorem served_setQueue {taken rest : List μ} (h : ∀ s ∈ b.subscriptions, Served history s)
    (hs : s ∈ b.subscriptions) (hqueue : s.queue = taken ++ rest)
    (hgained : ∀ k, deed.gained k = if s.number = k then taken else [])
    (hmessage : deed.message? = none) :
    ∀ s' ∈ (b.setQueue s.number rest).subscriptions, Served (history ++ [deed]) s' := by
  intro s' hs'
  rcases mem_setQueue hs' with ⟨hnumber, hrest⟩ | ⟨hnumber, hs'⟩
  · refine (h s hs).after hnumber ?_
    rw [hgained, if_pos rfl, hrest, hmessage, hqueue, Option.toList_none, List.append_nil]
  · refine (h s' hs').still ?_ hmessage
    rw [hgained, if_neg (Ne.symm hnumber)]

/-- Every deed serves every subscription. -/
theorem Step.served (hsound : b.Sound) (h : ∀ s ∈ b.subscriptions, Served history s)
    (hnew : .subscribed b.next ∉ history) (hnone : receipts b.next history = [])
    (hstep : Step b deed b') : ∀ s ∈ b'.subscriptions, Served (history ++ [deed]) s := by
  cases hstep with
  | subscribe =>
    intro s hs
    rcases List.mem_append.1 hs with hs | hs
    · exact (h s hs).still rfl rfl
    · rw [List.mem_singleton.1 hs]
      have hreceipts : receipts b.next (history ++ [.subscribed b.next]) = [] := by
        simpa [receipts, Deed.gained] using hnone
      refine ⟨List.mem_concat_self, ?_⟩
      rw [hreceipts, since_subscribed hnew]
      rfl
  | publish message hopen =>
    intro s' hs'
    rw [hsound.publish_eq] at hs'
    obtain ⟨s, hs, rfl⟩ := List.mem_map.1 hs'
    rw [if_pos (hsound.listed hopen (List.mem_map_of_mem hs))]
    exact (h s hs).after rfl rfl
  | drop => exact fun s hs => (h s (List.mem_filter.1 hs).1).still rfl rfl
  | close => exact fun s hs => (h s hs).still rfl rfl
  | drain hn =>
    obtain ⟨s, hs, rfl⟩ := List.mem_map.1 hn
    refine served_setQueue h hs (List.append_nil _).symm (fun k => ?_) rfl
    rw [Bus.drain, queued_of_mem hsound.nodup hs]
    rfl
  | receive _ hn =>
    obtain ⟨s, hs, rfl⟩ := List.mem_map.1 hn
    rw [hsound.receive_eq hs]
    cases hqueue : s.queue with
    | nil => exact fun s' hs' => (h s' hs').still rfl rfl
    | cons message rest =>
      have htaken : s.queue = [message] ++ rest := hqueue
      exact served_setQueue h hs htaken (fun k => rfl) rfl

/-- The bus after a history, and what its subscriptions have received. -/
structure Upheld (history : List (Deed μ)) (b : Bus μ) : Prop extends Sound b where
  closed_iff : b.isOpen = false ↔ .closed ∈ history
  fresh : ∀ n, b.next ≤ n → .subscribed n ∉ history ∧ receipts n history = []
  served : ∀ s ∈ b.subscriptions, Served history s

theorem upheld_empty : Upheld [] (empty : Bus μ) where
  toSound := sound_empty
  closed_iff := iff_of_false nofun (by simp)
  fresh _ _ := ⟨by simp, rfl⟩
  served _ h := by cases h

theorem receive_frame : (b.receive n).2.next = b.next ∧ (b.receive n).2.isOpen = b.isOpen := by
  rw [receive]
  cases b.queued n <;> exact ⟨rfl, rfl⟩

theorem Deed.gained_eq_nil {patience : Patience} {outcome : Except ReceiveError μ} (h : k ≠ n) :
    (received k patience outcome).gained n = [] := by
  cases outcome with
  | error => rfl
  | ok message => exact if_neg h

/-- A number is not used before a subscription has it. -/
theorem Step.fresh (hsound : b.Sound) (hstep : Step b deed b') (hn : b'.next ≤ n) :
    b.next ≤ n ∧ deed ≠ .subscribed n ∧ deed.gained n = [] := by
  have hheld (hle : b.next ≤ n) : ∀ k ∈ b.numbers, k ≠ n := fun k hk =>
    Nat.ne_of_lt (Nat.lt_of_lt_of_le (hsound.lt_next k hk) hle)
  cases hstep with
  | subscribe =>
    have hlt : b.next < n := hn
    refine ⟨Nat.le_of_lt hlt, fun heq => ?_, rfl⟩
    cases heq
    exact Nat.lt_irrefl _ hlt
  | publish message =>
    rw [hsound.publish_eq] at hn
    exact ⟨hn, nofun, rfl⟩
  | drop => exact ⟨hn, nofun, rfl⟩
  | close => exact ⟨hn, nofun, rfl⟩
  | drain hk => exact ⟨hn, nofun, if_neg (hheld hn _ hk)⟩
  | receive _ hk =>
    rw [receive_frame.1] at hn
    exact ⟨hn, nofun, Deed.gained_eq_nil (hheld hn _ hk)⟩

theorem Step.closed_iff (hsound : b.Sound) (hstep : Step b deed b') :
    b'.isOpen = false ↔ b.isOpen = false ∨ deed = .closed := by
  have hsame (hopen : b'.isOpen = b.isOpen) (hdeed : deed ≠ .closed) :
      b'.isOpen = false ↔ b.isOpen = false ∨ deed = .closed := by
    rw [hopen, or_iff_left hdeed]
  cases hstep with
  | subscribe => exact hsame rfl nofun
  | publish message => exact hsame (by rw [hsound.publish_eq]) nofun
  | drop => exact hsame rfl nofun
  | drain => exact hsame rfl nofun
  | receive => exact hsame receive_frame.2 nofun
  | close => exact iff_of_true rfl (.inr rfl)

theorem Upheld.step (h : Upheld history b) (hstep : Step b deed b') :
    Upheld (history ++ [deed]) b' where
  toSound := hstep.sound h.toSound
  closed_iff := by
    rw [hstep.closed_iff h.toSound, h.closed_iff, List.mem_append, List.mem_singleton, eq_comm]
  fresh n hn := by
    obtain ⟨hle, hdeed, hgained⟩ := hstep.fresh h.toSound hn
    obtain ⟨hnew, hnone⟩ := h.fresh n hle
    refine ⟨by simp [hnew, Ne.symm hdeed], ?_⟩
    rw [receipts] at hnone ⊢
    rw [List.flatMap_append, hnone, List.flatMap_singleton, hgained]
    rfl
  served :=
    have ⟨hnew, hnone⟩ := h.fresh b.next (Nat.le_refl _)
    hstep.served h.toSound h.served hnew hnone

theorem Run.upheld (h : Run history b) : Upheld history b := by
  induction h with
  | start => exact upheld_empty
  | step _ hstep ih => exact ih.step hstep

/-! ## The end -/

/-- A message that is queued is received, whoever else does what. -/
theorem Step.of_queued (hsound : b.Sound) {rest : List μ} (hs : ⟨n, message :: rest⟩ ∈ b.subscriptions)
    (patience : Patience) : Step b (.received n patience (.ok message)) (b.setQueue n rest) := by
  have hreceive : b.receive n = (.ok message, b.setQueue n rest) := hsound.receive_eq hs
  have hstep := Step.receive (b := b) (n := n) patience (List.mem_map_of_mem hs) (by simp [hreceive])
  rwa [hreceive] at hstep

/-- Nobody waits for a bus that is closed. -/
theorem Step.of_closed (hsound : b.Sound) (hs : ⟨n, []⟩ ∈ b.subscriptions)
    (hclosed : b.isOpen = false) (patience : Patience) :
    Step b (.received n patience (.error .disconnected)) b := by
  have hreceive : b.receive n = (.error .disconnected, b) := by
    simpa [hclosed] using hsound.receive_eq hs
  have hstep := Step.receive (b := b) (n := n) patience (List.mem_map_of_mem hs) (by simp [hreceive])
  rwa [hreceive] at hstep

/-- On a closed bus the queue of a subscription comes out in order, and then the news that
nobody sends. -/
theorem Run.exists_end (hrun : Run history b) (hclosed : b.isOpen = false)
    (hs : s ∈ b.subscriptions) (patience : Patience) : ∃ b', Run (history ++
      (s.queue.map fun message => .received s.number patience (.ok message)) ++
        [.received s.number patience (.error .disconnected)]) b' := by
  obtain ⟨number, queue⟩ := s
  induction queue generalizing history b with
  | nil =>
    refine ⟨b, ?_⟩
    rw [List.map_nil, List.append_nil]
    exact hrun.step (.of_closed hrun.upheld.toSound hs hclosed patience)
  | cons message rest ih =>
    have hrest : ⟨number, rest⟩ ∈ (b.setQueue number rest).subscriptions :=
      List.mem_map.2 ⟨_, hs, if_pos rfl⟩
    obtain ⟨b', hend⟩ :=
      ih (hrun.step (.of_queued hrun.upheld.toSound hs patience)) hclosed hrest
    exact ⟨b', by simpa using hend⟩

/-- Only who has received everything is told that there is nothing, and that nobody sends only
when the bus is closed. -/
theorem Step.of_error {patience : Patience} {e : ReceiveError} (h : Upheld history b)
    (hstep : Step b (.received n patience (.error e)) b') :
    receipts n history = messages (since n history) ∧ (e = .disconnected ↔ b.isOpen = false) := by
  generalize hdeed : Deed.received n patience (.error e) = deed at hstep
  cases hstep with
  | receive _ hn =>
    injection hdeed with hnumber hpatience houtcome
    subst hnumber
    obtain ⟨s, hs, rfl⟩ := List.mem_map.1 hn
    have hdelivered := (h.served s hs).delivered
    rw [h.receive_eq hs] at houtcome
    cases hqueue : s.queue with
    | nil =>
      rw [hqueue] at houtcome hdelivered
      rw [List.append_nil] at hdelivered
      refine ⟨hdelivered, ?_⟩
      cases houtcome
      cases b.isOpen <;> simp
    | cons message rest =>
      rw [hqueue] at houtcome
      cases houtcome
  | _ => cases hdeed

/-- After every history of a bus: publications have succeeded; every subscription has received,
and has in its queue, what was published since it began; on a closed bus the queue comes out in
order and then the news that nobody sends; and who was told that there is nothing had received
everything, and was told that nobody sends if and only if the bus was closed. -/
theorem subscriptions_receive_everything (h : Run history b) :
    (∀ message outcome, .published message outcome ∈ history → outcome = .ok ()) ∧
    (∀ s ∈ b.subscriptions,
      receipts s.number history ++ s.queue = messages (since s.number history)) ∧
    (b.isOpen = false → ∀ s ∈ b.subscriptions, ∀ patience, ∃ b', Run (history ++
      (s.queue.map fun message => .received s.number patience (.ok message)) ++
        [.received s.number patience (.error .disconnected)]) b') ∧
    (∀ before after n patience e,
      history = before ++ .received n patience (.error e) :: after →
        receipts n before = messages (since n before) ∧
          (e = .disconnected ↔ .closed ∈ before)) := by
  refine ⟨fun message outcome hmem => ?_, fun s hs => (h.upheld.served s hs).delivered,
    fun hclosed s hs => h.exists_end hclosed hs, ?_⟩
  · obtain ⟨before, after, rfl⟩ := List.append_of_mem hmem
    obtain ⟨b₀, b₁, hbefore, hstep⟩ := h.exists_step
    cases hstep with
    | publish =>
      rw [hbefore.upheld.tryPublish_eq]
      rfl
  · rintro before after n patience e rfl
    obtain ⟨b₀, b₁, hbefore, hstep⟩ := h.exists_step
    obtain ⟨hreceived, htold⟩ := hstep.of_error hbefore.upheld
    exact ⟨hreceived, htold.trans hbefore.upheld.closed_iff⟩

/-! Two subscriptions, of which one is dropped before the other has received anything. -/

private def relay : List (Deed String) :=
  [.subscribed 0, .published "m1" (.ok ()), .subscribed 1, .published "m2" (.ok ()), .dropped 0,
    .published "m3" (.ok ()), .received 1 .unlimited (.ok "m2"), .closed]

private def relayed : Bus String :=
  { isOpen := false, poisoned := false, next := 2, senders := [], subscriptions := [⟨1, ["m3"]⟩] }

private theorem relay_run : Run relay relayed :=
  ((((((((Run.start.step (.subscribe rfl)).step (.publish "m1" rfl)).step (.subscribe rfl)).step
    (.publish "m2" rfl)).step (.drop (by decide))).step (.publish "m3" rfl)).step
      (.receive .unlimited (by decide) (by decide))).step (.close rfl))

theorem relay_received : Run relay relayed ∧ relayed.isOpen = false ∧
    receipts 1 relay ++ ["m3"] = messages (since 1 relay) ∧
    ∃ b', Run (relay ++ [.received 1 .limited (.ok "m3")] ++
      [.received 1 .limited (.error .disconnected)]) b' :=
  have h := subscriptions_receive_everything relay_run
  have hheld : ⟨1, ["m3"]⟩ ∈ relayed.subscriptions := List.mem_singleton_self _
  ⟨relay_run, rfl, h.2.1 _ hheld, h.2.2.1 rfl _ hheld .limited⟩

end Bus

end PartnerRelations
