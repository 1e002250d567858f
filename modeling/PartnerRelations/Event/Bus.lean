/-
# `Event.Bus` — fanning messages out to subscriptions

A subscription holds a queue, and the bus keeps a list of the queues that it
sends to.  A subscription is known by a number that is never used again.
Dropping one takes its queue away, but not its place in the list: the bus notices
when it next sends, and strikes the subscription then.  A message is sent to one
queue after the other, so none of them can keep it from the rest.

Closing the bus takes the list away.  What is queued can still be received, and
only then does a subscription learn that nobody sends to it any more.
-/

namespace PartnerRelations

/-- Why nothing was received. -/
inductive ReceiveError where
  /-- Nothing is queued. -/
  | empty
  /-- Nothing is queued, and nobody sends any more. -/
  | disconnected
deriving DecidableEq, Repr

/-- Why a message was not published. -/
inductive PublishError where
  /-- Somebody failed while at work on the list, and left it behind. -/
  | poisoned
deriving DecidableEq, Repr

/-- The queue of one subscription, oldest message first. -/
structure Subscription (μ : Type) where
  number : Nat
  queue : List μ

/-- Put a message at the end of the queue. -/
def Subscription.push {μ : Type} (s : Subscription μ) (message : μ) : Subscription μ :=
  { s with queue := s.queue ++ [message] }

/-- A bus with its subscriptions. -/
structure Bus (μ : Type) where
  isOpen : Bool
  /-- The list of senders was left behind by somebody who failed. -/
  poisoned : Bool
  /-- The number of the next subscription. -/
  next : Nat
  /-- The subscriptions that the bus sends to, oldest first.  Some may have been
  dropped since it last sent. -/
  senders : List Nat
  /-- The subscriptions that are held. -/
  subscriptions : List (Subscription μ)

namespace Bus

variable {μ : Type}

/-- Send a message to one subscription; none if it is no longer held. -/
def send (message : μ) (number : Nat) (subscriptions : List (Subscription μ)) :
    Option (List (Subscription μ)) :=
  if subscriptions.any (·.number == number) then
    some (subscriptions.map fun s => if s.number = number then s.push message else s)
  else none

/-- Send a message to one subscription after the other, and keep those that it
could be sent to. -/
def sendAll (message : μ) :
    List Nat → List (Subscription μ) → List Nat × List (Subscription μ)
  | [], subscriptions => ([], subscriptions)
  | number :: rest, subscriptions =>
    match send message number subscriptions with
    | none => sendAll message rest subscriptions
    | some subscriptions =>
      let (kept, subscriptions) := sendAll message rest subscriptions
      (number :: kept, subscriptions)

/-- An open bus that nobody has subscribed to. -/
def empty : Bus μ := ⟨true, false, 0, [], []⟩

/-- A new subscription, with its number.  Where the list was left behind there
still is a subscription; nobody sends to it. -/
def subscribe (b : Bus μ) : Nat × Bus μ :=
  (b.next,
    { b with
      next := b.next + 1
      senders := if b.poisoned then b.senders else b.senders ++ [b.next]
      subscriptions := b.subscriptions ++ [⟨b.next, []⟩] })

/-- Publish a message. -/
def tryPublish (b : Bus μ) (message : μ) : Except PublishError (Bus μ) :=
  if b.poisoned then .error .poisoned
  else
    let (senders, subscriptions) := sendAll message b.senders b.subscriptions
    .ok { b with senders, subscriptions }

/-- The bus after a publication, which changes nothing if it fails. -/
def publish (b : Bus μ) (message : μ) : Bus μ :=
  (b.tryPublish message).toOption.getD b

/-- Drop a subscription with everything it has queued. -/
def unsubscribe (b : Bus μ) (number : Nat) : Bus μ :=
  { b with subscriptions := b.subscriptions.filter fun s => s.number ≠ number }

/-- End publication. -/
def close (b : Bus μ) : Bus μ :=
  { b with isOpen := false, senders := [] }

/-- The messages that a subscription has queued; nothing for an unknown one. -/
def queued (b : Bus μ) (number : Nat) : List μ :=
  ((b.subscriptions.find? fun s => s.number = number).map Subscription.queue).getD []

/-- The bus with another queue for one subscription. -/
def setQueue (b : Bus μ) (number : Nat) (queue : List μ) : Bus μ :=
  { b with subscriptions := b.subscriptions.map fun s =>
      if s.number = number then { s with queue := queue } else s }

/-- Take the oldest queued message of a subscription. -/
def receive (b : Bus μ) (number : Nat) : Except ReceiveError μ × Bus μ :=
  match b.queued number with
  | message :: rest => (.ok message, b.setQueue number rest)
  | [] => (.error (if number ∈ b.senders then .empty else .disconnected), b)

/-- Take every queued message of a subscription. -/
def drain (b : Bus μ) (number : Nat) : List μ × Bus μ :=
  (b.queued number, b.setQueue number [])

end Bus

end PartnerRelations
