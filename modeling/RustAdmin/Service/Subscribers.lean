import RustAdmin.Support.LinkedMap

/-!
# The subscribers of a service

A service keeps its active subscribers and, if it needs a snapshot, those that wait
for one.  A subscriber is made when a connection subscribes and holds what it has
been sent since.
-/

namespace RustAdmin.Service

open RustAdmin.Support

/-- A connection number. -/
abbrev ConnId := ℤ

/-- `ServiceInner`, as far as sending and subscribing use it.  A subscriber is the
messages it has received. -/
@[ext] structure ServiceInner (μ : Type*) where
  subscribes : LinkedMap ConnId (List μ)
  newSubscribes : LinkedMap ConnId (List μ)
  needSnapshot : Bool

namespace ServiceInner

variable {μ : Type*}

/-- `ServiceTmpl::new`. -/
def new (needSnapshot : Bool) : ServiceInner μ := ⟨∅, ∅, needSnapshot⟩

variable (s : ServiceInner μ)

/-- Every subscriber of a table receives the message. -/
def deliver (table : LinkedMap ConnId (List μ)) (msg : μ) : LinkedMap ConnId (List μ) :=
  table.mapValues fun _ received => received ++ [msg]

def sendNewSubscribes (msg : μ) : ServiceInner μ :=
  { s with newSubscribes := deliver s.newSubscribes msg }

def swapNewSubscribes : ServiceInner μ :=
  { s with subscribes := s.subscribes.setAll s.newSubscribes.entries, newSubscribes := ∅ }

def isSubed (id : ConnId) : Bool := s.subscribes.contains id || s.newSubscribes.contains id

def onSubscribe (id : ConnId) : ServiceInner μ :=
  if s.subscribes.contains id then s
  else if s.needSnapshot then { s with newSubscribes := s.newSubscribes.set id [] }
  else { s with subscribes := s.subscribes.set id [] }

def onUnsubscribe (id : ConnId) : ServiceInner μ :=
  if s.subscribes.contains id then { s with subscribes := s.subscribes.remove id }
  else { s with newSubscribes := s.newSubscribes.remove id }

def hasPendingSubscribers : Bool := !s.newSubscribes.entries.isEmpty

/-- `send_shared`, and `send_video_frame` without its set of receivers. -/
def sendShared (msg : μ) : ServiceInner μ := { s with subscribes := deliver s.subscribes msg }

/-- `send_to`, `send_to_others` and `send_without`: only some of the active subscribers. -/
def sendWhere (receives : ConnId → Bool) (msg : μ) : ServiceInner μ :=
  { s with
    subscribes := s.subscribes.mapValues fun id received =>
      if receives id then received ++ [msg] else received }

/-- `send_video_frame_with_join`: the service after it, and who was sent the frame. -/
def sendVideoFrameWithJoin (msg : μ) (startsWithKeyframe : Bool) :
    ServiceInner μ × List ConnId :=
  let s := if startsWithKeyframe then s.swapNewSubscribes else s
  (s.sendShared msg, s.subscribes.keys)

/-! ## Looking a subscriber up -/

variable {s} {id id' : ConnId} {msg : μ}

@[simp] theorem get?_deliver (table : LinkedMap ConnId (List μ)) :
    (deliver table msg).get? id = (table.get? id).map (· ++ [msg]) :=
  LinkedMap.get?_mapValues

@[simp] theorem get?_swapNewSubscribes :
    s.swapNewSubscribes.subscribes.get? id =
      (s.newSubscribes.get? id).or (s.subscribes.get? id) :=
  LinkedMap.get?_setAll s.newSubscribes

@[simp] theorem newSubscribes_swapNewSubscribes :
    s.swapNewSubscribes.newSubscribes = ∅ := rfl

/-- The messages the present subscription of a connection has been sent. -/
def received (s : ServiceInner μ) (id : ConnId) : Option (List μ) :=
  (s.subscribes.get? id).or (s.newSubscribes.get? id)

theorem isSubed_eq_isSome : s.isSubed id = (s.received id).isSome := by
  unfold isSubed received LinkedMap.contains
  cases s.subscribes.get? id <;> cases s.newSubscribes.get? id <;> rfl

/-- What `on_subscribe` does to the tables. -/
theorem onSubscribe_cases (s : ServiceInner μ) (id : ConnId) :
    ((∃ l, s.subscribes.get? id = some l) ∧ s.onSubscribe id = s) ∨
    (s.subscribes.get? id = none ∧ s.needSnapshot = true ∧
      s.onSubscribe id = { s with newSubscribes := s.newSubscribes.set id [] }) ∨
    (s.subscribes.get? id = none ∧ s.needSnapshot = false ∧
      s.onSubscribe id = { s with subscribes := s.subscribes.set id [] }) := by
  unfold onSubscribe LinkedMap.contains
  cases hget : s.subscribes.get? id with
  | some l => exact Or.inl ⟨⟨l, rfl⟩, by simp⟩
  | none =>
      cases hsnapshot : s.needSnapshot with
      | true => exact Or.inr (Or.inl ⟨rfl, rfl, by simp⟩)
      | false => exact Or.inr (Or.inr ⟨rfl, rfl, by simp⟩)

/-- What `on_unsubscribe` does to the tables: it looks at one of them only. -/
theorem onUnsubscribe_cases (s : ServiceInner μ) (id : ConnId) :
    ((∃ l, s.subscribes.get? id = some l) ∧
      s.onUnsubscribe id = { s with subscribes := s.subscribes.remove id }) ∨
    (s.subscribes.get? id = none ∧
      s.onUnsubscribe id = { s with newSubscribes := s.newSubscribes.remove id }) := by
  unfold onUnsubscribe LinkedMap.contains
  cases hget : s.subscribes.get? id with
  | some l => exact Or.inl ⟨⟨l, rfl⟩, by simp⟩
  | none => exact Or.inr ⟨rfl, by simp⟩

end ServiceInner

end RustAdmin.Service
