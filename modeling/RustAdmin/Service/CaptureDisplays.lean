import Mathlib.Data.List.Destutter
import Mathlib.Data.List.Sort
import Mathlib.Data.List.TakeWhile
import RustAdmin.Service.Subscribers
import RustAdmin.Support.Run

/-!
# Capture requests

A connection asks for the displays it wants to see; the server turns a valid request
into one subscription or unsubscription for each video service.  The server lock
orders requests and removals, but the services send their frames in between.

`Shows` is about one service and one connection: the tables hold what was sent since
the first keyframe of the present interval.  Each operation on a service keeps it,
with one lemma for the connection of the operation and one for the others.  `Sound`
puts the services together while the holder of the lock is on its way: those that it
has visited are as after the request, the others as before it.  Between two requests
the two readings agree.
-/

namespace RustAdmin.Service

open RustAdmin.Support

inductive VideoSource
  | monitor
  | camera
  deriving DecidableEq, Repr

/-- The name of a video service is the prefix of its source and its index. -/
abbrev ServiceName := VideoSource × ℕ

/-- `get_service_name`. -/
def getServiceName (source : VideoSource) (idx : ℕ) : ServiceName := (source, idx)

/-- `CaptureDisplaysOperation`; `includeListed` is `Include`. -/
inductive CaptureDisplaysOperation
  | includeListed
  | excludeListed
  | set
  deriving DecidableEq, Repr

namespace CaptureDisplaysOperation

def request (add sub set : List ℕ) : CaptureDisplaysOperation × List ℕ :=
  if add ≠ [] then (.includeListed, add)
  else if sub ≠ [] then (.excludeListed, sub)
  else (.set, set)

/-- `validated_request`: nothing when displays were listed and none of them exists. -/
def validatedRequest (add sub set : List ℕ) (available : ℕ) :
    Option (CaptureDisplaysOperation × List ℕ) :=
  let requested := request add sub set
  let valid := requested.2.filter (· < available)
  if requested.2 ≠ [] ∧ valid = [] then none
  else some (requested.1, (valid.insertionSort (· ≤ ·)).destutter (· ≠ ·))

def subscription (operation : CaptureDisplaysOperation) (listed subscribed : Bool) : Bool :=
  match operation with
  | .includeListed => subscribed || listed
  | .excludeListed => subscribed && !listed
  | .set => listed

end CaptureDisplaysOperation

/-- What the holder of the server lock does to every video service. -/
inductive Task
  | capture (conn : ConnId) (operation : CaptureDisplaysOperation) (listed : List ServiceName)
  | removal (conn : ConnId)
  deriving DecidableEq

namespace Task

def conn : Task → ConnId
  | capture conn _ _ => conn
  | removal conn => conn

/-- Whether the connection is subscribed to the service after the task, given whether
it is before. -/
def target (task : Task) (name : ServiceName) (subscribed : Bool) : Bool :=
  match task with
  | capture _ operation listed => operation.subscription (decide (name ∈ listed)) subscribed
  | removal _ => false

end Task

variable {φ : Type*}

/-- `Server::subscribe`, for a service that exists. -/
def ServiceInner.subscribe (s : ServiceInner φ) (conn : ConnId) (sub : Bool) : ServiceInner φ :=
  if s.isSubed conn = sub then s
  else if sub then s.onSubscribe conn
  else s.onUnsubscribe conn

/-- One service within `capture_displays` or `remove_connection`. -/
def Task.apply (task : Task) (name : ServiceName) (s : ServiceInner φ) : ServiceInner φ :=
  match task with
  | .capture conn _ _ => s.subscribe conn (task.target name (s.isSubed conn))
  | .removal conn => s.onUnsubscribe conn

/-- The video services of a server, with the task of the present lock holder and the
services it has not come to. -/
structure Server (φ : Type*) where
  services : LinkedMap ServiceName (ServiceInner φ)
  task : Task
  remaining : List ServiceName

inductive ServerEvent (φ : Type*)
  | request (conn : ConnId) (source : VideoSource) (add sub set : List ℕ) (available : ℕ)
  | removal (conn : ConnId)
  | visit (task : Task) (name : ServiceName)
  | frame (name : ServiceName) (msg : φ)

namespace Server

/-- A video service is made for every listed display that has none. -/
def addMissing (services : LinkedMap ServiceName (ServiceInner φ)) (names : List ServiceName) :
    LinkedMap ServiceName (ServiceInner φ) :=
  names.foldl (fun services name =>
    if services.contains name then services else services.set name (.new true)) services

/-- The server at its start: some video services, no connection. -/
def start (names : List ServiceName) : Server φ := ⟨addMissing ∅ names, .removal 0, []⟩

variable (key : φ → Bool)

/-- One event; a request or a removal waits for the lock. -/
def applyEvent? (st : Server φ) : ServerEvent φ → Option (Server φ)
  | .request conn source add sub set available =>
      match CaptureDisplaysOperation.validatedRequest add sub set available with
      | none => some st
      | some (operation, displays) =>
          if st.remaining ≠ [] then none
          else
            let listed := displays.map (getServiceName source)
            -- Services are made for what is asked for, not for what is given up.
            let services :=
              if operation = .excludeListed then st.services else addMissing st.services listed
            some ⟨services, .capture conn operation listed, services.keys⟩
  | .removal conn =>
      if st.remaining ≠ [] then none
      else some ⟨st.services, .removal conn, st.services.keys⟩
  | .visit task name =>
      if task ≠ st.task ∨ name ∉ st.remaining then none
      else (st.services.get? name).map fun s =>
        { st with
          services := st.services.set name (task.apply name s)
          remaining := st.remaining.erase name }
  | .frame name msg =>
      (st.services.get? name).map fun s =>
        { st with services := st.services.set name (s.sendVideoFrameWithJoin msg (key msg)).1 }

def run? (names : List ServiceName) (events : List (ServerEvent φ)) : Option (Server φ) :=
  events.foldlM (applyEvent? key) (start names)

end Server

/-! ## What the requests of one connection say -/

section Spec

variable (conn : ConnId) (name : ServiceName) (events : List (ServerEvent φ))
  (event : ServerEvent φ)

/-- How one event changes whether the connection wants the service. -/
def wantsStep (wants : Bool) : ServerEvent φ → Bool
  | .request c source add sub set available =>
      if c = conn then
        match CaptureDisplaysOperation.validatedRequest add sub set available with
        | none => wants
        | some (operation, displays) =>
            operation.subscription (decide (name ∈ displays.map (getServiceName source))) wants
      else wants
  | .removal c => if c = conn then false else wants
  | _ => wants

/-- The connection wants the service, by its own requests alone. -/
def wants : Bool := events.foldl (wantsStep conn name) false

/-- How one event changes the frames of the present subscription. -/
def intervalStep (frames : Option (List φ)) : ServerEvent φ → Option (List φ)
  | .visit task n =>
      if task.conn = conn ∧ n = name then
        if task.target name frames.isSome then some (frames.getD []) else none
      else frames
  | .frame n msg => if n = name then frames.map (· ++ [msg]) else frames
  | _ => frames

/-- The frames the service has sent since the connection was last subscribed to it,
if it is subscribed. -/
def interval : Option (List φ) := events.foldl (intervalStep conn name) none

theorem wants_concat :
    wants conn name (events ++ [event]) = wantsStep conn name (wants conn name events) event := by
  simp [wants]

theorem interval_concat : interval conn name (events ++ [event]) =
    intervalStep conn name (interval conn name events) event := by
  simp [interval]

end Spec

/-! ## One service shows the interval of each connection -/

section Tables

variable (key : φ → Bool)

/-- From the first frame that starts with a keyframe on. -/
def fromKeyframe (frames : List φ) : List φ := frames.dropWhile fun frame => !key frame

/-- The tables of the service hold the frames of the interval: from its first keyframe
among the active subscribers, before that among the waiting ones. -/
def Shows (s : ServiceInner φ) (conn : ConnId) : Option (List φ) → Prop
  | none => s.subscribes.get? conn = none ∧ s.newSubscribes.get? conn = none
  | some frames =>
      if frames.any key then
        s.subscribes.get? conn = some (fromKeyframe key frames) ∧
          s.newSubscribes.get? conn = none
      else s.subscribes.get? conn = none ∧ s.newSubscribes.get? conn = some []

variable {key} {s : ServiceInner φ} {conn conn' : ConnId} {frames : Option (List φ)} {msg : φ}

theorem fromKeyframe_of_not_any {l : List φ} (h : l.any key = false) : fromKeyframe key l = [] := by
  unfold fromKeyframe
  rw [List.dropWhile_eq_nil_iff]
  intro frame hframe
  simpa using List.any_eq_false.mp h frame hframe

theorem fromKeyframe_concat (l : List φ) :
    fromKeyframe key (l ++ [msg]) =
      if l.any key then fromKeyframe key l ++ [msg] else if key msg then [msg] else [] := by
  unfold fromKeyframe
  rw [List.dropWhile_append]
  by_cases hany : l.any key = true
  · have hne : (l.dropWhile fun frame => !key frame) ≠ [] := by
      rw [ne_eq, List.dropWhile_eq_nil_iff]
      obtain ⟨frame, hframe, hkey⟩ := List.any_eq_true.mp hany
      intro hall
      have := hall frame hframe
      simp [hkey] at this
    simp [hany, hne]
  · have hnil : (l.dropWhile fun frame => !key frame) = [] :=
      fromKeyframe_of_not_any (Bool.not_eq_true _ ▸ hany)
    simp only [hnil, List.isEmpty_nil, if_true, hany, if_false, Bool.false_eq_true]
    cases hkey : key msg <;> simp [hkey]

theorem Shows.received_eq (h : Shows key s conn frames) :
    s.received conn = frames.map (fromKeyframe key) := by
  unfold ServiceInner.received
  cases frames with
  | none => simp [h.1, h.2]
  | some l =>
      simp only [Shows] at h
      split at h
      · simp [h.1]
      · rename_i hany
        simp [h.1, h.2, fromKeyframe_of_not_any (Bool.not_eq_true _ ▸ hany)]

theorem Shows.isSubed_eq (h : Shows key s conn frames) : s.isSubed conn = frames.isSome := by
  rw [ServiceInner.isSubed_eq_isSome, h.received_eq]
  cases frames <;> rfl

/-- A frame goes to the active subscribers; a keyframe lets the waiting ones in first. -/
theorem Shows.frame (h : Shows key s conn frames) :
    Shows key (s.sendVideoFrameWithJoin msg (key msg)).1 conn (frames.map (· ++ [msg])) := by
  cases frames with
  | none =>
      cases hkey : key msg with
      | false => simpa [Shows, ServiceInner.sendVideoFrameWithJoin, ServiceInner.sendShared] using h
      | true =>
          simp only [Shows] at h
          simp [Shows, ServiceInner.sendVideoFrameWithJoin, ServiceInner.sendShared, h.1, h.2]
  | some l =>
      simp only [Shows] at h
      simp only [Option.map_some, Shows, List.any_append, List.any_cons, List.any_nil,
        Bool.or_false, fromKeyframe_concat]
      cases hany : l.any key with
      | true =>
          rw [if_pos hany] at h
          cases hkey : key msg <;>
            simp [ServiceInner.sendVideoFrameWithJoin, ServiceInner.sendShared, h.1, h.2]
      | false =>
          rw [hany, if_neg Bool.false_ne_true] at h
          cases hkey : key msg <;>
            simp [ServiceInner.sendVideoFrameWithJoin, ServiceInner.sendShared, h.1, h.2]

/-- Nothing happens to the tables of another connection. -/
theorem Shows.of_same {s' : ServiceInner φ} (h : Shows key s conn frames)
    (hactive : s'.subscribes.get? conn = s.subscribes.get? conn)
    (hwaiting : s'.newSubscribes.get? conn = s.newSubscribes.get? conn) :
    Shows key s' conn frames := by
  cases frames with
  | none => exact ⟨hactive.trans h.1, hwaiting.trans h.2⟩
  | some l =>
      simp only [Shows] at h ⊢
      rw [hactive, hwaiting]
      exact h

theorem Shows.onSubscribe_other (h : Shows key s conn frames) (hne : conn ≠ conn') :
    Shows key (s.onSubscribe conn') conn frames := by
  rcases s.onSubscribe_cases conn' with ⟨-, heq⟩ | ⟨-, -, heq⟩ | ⟨-, -, heq⟩ <;> rw [heq]
  · exact h
  · exact h.of_same rfl (by rw [LinkedMap.get?_set, if_neg hne])
  · exact h.of_same (by rw [LinkedMap.get?_set, if_neg hne]) rfl

theorem Shows.onUnsubscribe_other (h : Shows key s conn frames) (hne : conn ≠ conn') :
    Shows key (s.onUnsubscribe conn') conn frames := by
  rcases s.onUnsubscribe_cases conn' with ⟨-, heq⟩ | ⟨-, heq⟩ <;> rw [heq]
  · exact h.of_same (by rw [LinkedMap.get?_remove, if_neg hne]) rfl
  · exact h.of_same rfl (by rw [LinkedMap.get?_remove, if_neg hne])

/-- A new subscriber waits for a keyframe. -/
theorem Shows.onSubscribe (h : Shows key s conn none) (hsnapshot : s.needSnapshot = true) :
    Shows key (s.onSubscribe conn) conn (some []) := by
  rcases s.onSubscribe_cases conn with ⟨⟨l, hl⟩, -⟩ | ⟨-, -, heq⟩ | ⟨-, hno, -⟩
  · rw [h.1] at hl
    cases hl
  · rw [heq]
    exact ⟨h.1, by rw [LinkedMap.get?_set, if_pos rfl]⟩
  · rw [hsnapshot] at hno
    cases hno

/-- A subscriber that leaves is in neither table. -/
theorem Shows.onUnsubscribe (h : Shows key s conn frames) :
    Shows key (s.onUnsubscribe conn) conn none := by
  -- The code looks at one table only, which is enough: nobody is in both.
  have hwaiting : (∃ l, s.subscribes.get? conn = some l) → s.newSubscribes.get? conn = none := by
    rintro ⟨l, hl⟩
    cases frames with
    | none => exact h.2
    | some l' =>
        simp only [Shows] at h
        split at h
        · exact h.2
        · rw [h.1] at hl
          cases hl
  rcases s.onUnsubscribe_cases conn with ⟨hactive, heq⟩ | ⟨hnone, heq⟩ <;> rw [heq]
  · exact ⟨by rw [LinkedMap.get?_remove, if_pos rfl], hwaiting hactive⟩
  · exact ⟨hnone, by rw [LinkedMap.get?_remove, if_pos rfl]⟩

end Tables

/-! ## The server -/

section Runs

variable {key : φ → Bool}

/-- One service within a task, for the connection of the task and for the others. -/
theorem Shows.apply {s : ServiceInner φ} {conn : ConnId} {name : ServiceName}
    {frames : Option (List φ)} (h : Shows key s conn frames) (hsnapshot : s.needSnapshot = true)
    (task : Task) :
    Shows key (task.apply name s) conn (intervalStep conn name frames (.visit task name)) := by
  by_cases hconn : task.conn = conn
  · simp only [intervalStep, hconn, and_self, if_true]
    cases task with
    | removal c =>
        obtain rfl : c = conn := hconn
        exact h.onUnsubscribe
    | capture c operation listed =>
        obtain rfl : c = conn := hconn
        simp only [Task.apply, ServiceInner.subscribe, h.isSubed_eq]
        cases frames with
        | none =>
            cases htarget : Task.target (.capture c operation listed) name
              (none : Option (List φ)).isSome with
            | false => simpa using h
            | true => simpa using h.onSubscribe hsnapshot
        | some l =>
            cases htarget : Task.target (.capture c operation listed) name (some l).isSome with
            | false => simpa using h.onUnsubscribe
            | true => simpa using h
  -- The task of another connection.
  · have hstep : intervalStep conn name frames (.visit task name) = frames := by
      simp [intervalStep, hconn]
    have hne : conn ≠ task.conn := fun heq => hconn heq.symm
    rw [hstep]
    cases task with
    | removal c => exact h.onUnsubscribe_other hne
    | capture c operation listed =>
        simp only [Task.apply, ServiceInner.subscribe]
        split
        · exact h
        · split
          · exact h.onSubscribe_other hne
          · exact h.onUnsubscribe_other hne

theorem needSnapshot_apply (task : Task) (name : ServiceName) (s : ServiceInner φ) :
    (task.apply name s).needSnapshot = s.needSnapshot := by
  have hon (conn : ConnId) : (s.onSubscribe conn).needSnapshot = s.needSnapshot := by
    rcases s.onSubscribe_cases conn with ⟨-, heq⟩ | ⟨-, -, heq⟩ | ⟨-, -, heq⟩ <;> rw [heq]
  have hoff (conn : ConnId) : (s.onUnsubscribe conn).needSnapshot = s.needSnapshot := by
    rcases s.onUnsubscribe_cases conn with ⟨-, heq⟩ | ⟨-, heq⟩ <;> rw [heq]
  cases task with
  | removal c => exact hoff c
  | capture c operation listed =>
      simp only [Task.apply, ServiceInner.subscribe]
      split
      · rfl
      · split
        · exact hon c
        · exact hoff c

namespace Server

variable {st st' : Server φ} {events : List (ServerEvent φ)} {event : ServerEvent φ}

theorem get?_addMissing (services : LinkedMap ServiceName (ServiceInner φ))
    (names : List ServiceName) (name : ServiceName) :
    (addMissing services names).get? name =
      (services.get? name).or (if name ∈ names then some (.new true) else none) := by
  unfold addMissing
  induction names generalizing services with
  | nil => simp
  | cons first names ih =>
      rw [List.foldl_cons, ih]
      by_cases hcontains : services.contains first = true
      · rw [if_pos hcontains]
        obtain ⟨s, hs⟩ := LinkedMap.contains_iff.mp hcontains
        by_cases hname : name = first
        · subst hname
          rw [hs]
          rfl
        · simp [hname]
      · rw [if_neg hcontains, LinkedMap.get?_set]
        have hnone : services.get? first = none := by
          simpa [LinkedMap.contains] using hcontains
        by_cases hname : name = first
        · subst hname
          simp [hnone]
        · simp [hname]

/-- How far the lock holder has come, in terms of the requests: a service it has not
come to is still as before its request. -/
structure Sound (key : φ → Bool) (st : Server φ) (events : List (ServerEvent φ)) : Prop where
  shows : ∀ conn name s, st.services.get? name = some s →
    s.needSnapshot = true ∧ Shows key s conn (interval conn name events)
  wanted : ∀ conn name s, st.services.get? name = some s →
    wants conn name events =
      if name ∈ st.remaining ∧ st.task.conn = conn then
        st.task.target name (interval conn name events).isSome
      else (interval conn name events).isSome
  absent : ∀ conn name, st.services.get? name = none →
    wants conn name events = false ∧ interval conn name events = none
  nodup : st.remaining.Nodup

theorem sound_start (names : List ServiceName) : (start names : Server φ).Sound key [] where
  shows := by
    intro conn name s hs
    have hnew : s = .new true := by
      simp only [start, get?_addMissing, LinkedMap.get?_empty, Option.none_or] at hs
      split at hs
      · exact (Option.some.inj hs).symm
      · cases hs
    subst hnew
    exact ⟨rfl, rfl, rfl⟩
  wanted conn name s hs := by simp [start, wants, interval]
  absent conn name _ := ⟨rfl, rfl⟩
  nodup := List.nodup_nil

/-- While no task holds the lock, every service is as its connections want it. -/
theorem Sound.wants_of_idle (h : st.Sound key events) (hidle : st.remaining = [])
    (conn : ConnId) (name : ServiceName) :
    wants conn name events = (interval conn name events).isSome := by
  cases hs : st.services.get? name with
  | none =>
      obtain ⟨hwants, hinterval⟩ := h.absent conn name hs
      rw [hwants, hinterval]
      rfl
  | some s =>
      have hwanted := h.wanted conn name s hs
      simpa [hidle] using hwanted

/-- A request that is valid takes the lock. -/
theorem Sound.request (h : st.Sound key events) (hidle : st.remaining = []) {conn : ConnId}
    {source : VideoSource} {add sub set : List ℕ} {available : ℕ}
    {operation : CaptureDisplaysOperation} {displays : List ℕ}
    (hvalid : CaptureDisplaysOperation.validatedRequest add sub set available =
      some (operation, displays)) :
    Sound key
      ⟨if operation = .excludeListed then st.services
        else addMissing st.services (displays.map (getServiceName source)),
        .capture conn operation (displays.map (getServiceName source)),
        (if operation = .excludeListed then st.services
          else addMissing st.services (displays.map (getServiceName source))).keys⟩
      (events ++ [.request conn source add sub set available]) := by
  have hinterval : ∀ c name, interval c name
      (events ++ [.request conn source add sub set available]) = interval c name events :=
    fun c name => interval_concat c name events _
  have hwants : ∀ c name, wants c name
      (events ++ [.request conn source add sub set available]) =
        if conn = c then operation.subscription
          (decide (name ∈ displays.map (getServiceName source))) (wants c name events)
        else wants c name events := by
    intro c name
    rw [wants_concat, wantsStep, hvalid]
  have hget : ∀ name, (if operation = .excludeListed then st.services
      else addMissing st.services (displays.map (getServiceName source))).get? name =
        (st.services.get? name).or
          (if operation ≠ .excludeListed ∧ name ∈ displays.map (getServiceName source) then
            some (.new true) else none) := by
    intro name
    by_cases hop : operation = .excludeListed
    · simp [hop]
    · rw [if_neg hop, get?_addMissing]
      simp [hop]
  exact {
    shows := by
      intro c name s hs
      rw [hinterval]
      rw [hget] at hs
      cases hold : st.services.get? name with
      | some old =>
          rw [hold] at hs
          obtain rfl : old = s := Option.some.inj hs
          exact h.shows c name old hold
      | none =>
          rw [hold, Option.none_or] at hs
          split at hs
          · obtain rfl := Option.some.inj hs
            rw [(h.absent c name hold).2]
            exact ⟨rfl, rfl, rfl⟩
          · cases hs
    wanted := by
      intro c name s hs
      have hmem : name ∈ (if operation = .excludeListed then st.services
          else addMissing st.services (displays.map (getServiceName source))).keys :=
        LinkedMap.mem_keys_iff.mpr ⟨s, hs⟩
      simp only [hmem, true_and, Task.conn, Task.target, hinterval, hwants,
        h.wants_of_idle hidle]
    absent := by
      intro c name hs
      rw [hget] at hs
      obtain ⟨hold, hnew⟩ := Option.or_eq_none_iff.mp hs
      obtain ⟨hw, hi⟩ := h.absent c name hold
      refine ⟨?_, (hinterval c name).trans hi⟩
      rw [hwants, hw]
      split
      -- A display without a service after the request was not asked for.
      · cases operation with
        | excludeListed => rfl
        | includeListed => simpa [CaptureDisplaysOperation.subscription] using hnew
        | set => simpa [CaptureDisplaysOperation.subscription] using hnew
      · rfl
    nodup := LinkedMap.nodup _ }

/-- A removal takes the lock. -/
theorem Sound.removal (h : st.Sound key events) (hidle : st.remaining = []) (conn : ConnId) :
    Sound key ⟨st.services, .removal conn, st.services.keys⟩ (events ++ [.removal conn]) := by
  have hinterval : ∀ c name, interval c name (events ++ [.removal conn]) =
      interval c name events := fun c name => interval_concat c name events _
  exact {
    shows := by
      intro c name s hs
      rw [hinterval]
      exact h.shows c name s hs
    wanted := by
      intro c name s hs
      have hmem : name ∈ st.services.keys := LinkedMap.mem_keys_iff.mpr ⟨s, hs⟩
      simp only [wants_concat, wantsStep, hinterval, hmem, true_and, Task.conn, Task.target,
        h.wants_of_idle hidle]
    absent := by
      intro c name hs
      obtain ⟨hw, hi⟩ := h.absent c name hs
      refine ⟨?_, (hinterval c name).trans hi⟩
      rw [wants_concat, wantsStep, hw, ite_self]
    nodup := LinkedMap.nodup _ }

/-- The lock holder comes to a service. -/
theorem Sound.visit (h : st.Sound key events) {name : ServiceName} {s : ServiceInner φ}
    (hs : st.services.get? name = some s) (hname : name ∈ st.remaining) :
    Sound key { st with
      services := st.services.set name (st.task.apply name s)
      remaining := st.remaining.erase name } (events ++ [.visit st.task name]) := by
  have hother : ∀ c n, n ≠ name →
      interval c n (events ++ [.visit st.task name]) = interval c n events := by
    intro c n hne
    rw [interval_concat]
    exact if_neg fun hboth => hne hboth.2.symm
  have hwants : ∀ c n, wants c n (events ++ [.visit st.task name]) = wants c n events :=
    fun c n => wants_concat c n events _
  exact {
    shows := by
      intro c n s' hs'
      simp only [LinkedMap.get?_set] at hs'
      by_cases hn : n = name
      · rw [if_pos hn] at hs'
        obtain rfl := Option.some.inj hs'
        subst hn
        obtain ⟨hsnapshot, hshows⟩ := h.shows c n s hs
        rw [interval_concat, needSnapshot_apply]
        exact ⟨hsnapshot, hshows.apply hsnapshot st.task⟩
      · rw [if_neg hn] at hs'
        rw [hother c n hn]
        exact h.shows c n s' hs'
    wanted := by
      intro c n s' hs'
      simp only [LinkedMap.get?_set] at hs'
      rw [hwants]
      by_cases hn : n = name
      -- The service is done: what its connection wants is now what it has.
      · subst hn
        have hdone : n ∉ st.remaining.erase n := h.nodup.not_mem_erase
        rw [h.wanted c n s hs, interval_concat, intervalStep]
        simp only [hname, hdone, true_and, false_and, if_false, and_true]
        split
        · cases st.task.target n (interval c n events).isSome <;> rfl
        · rfl
      · rw [if_neg hn] at hs'
        rw [h.wanted c n s' hs', hother c n hn]
        simp only [List.mem_erase_of_ne hn]
    absent := by
      intro c n hn
      simp only [LinkedMap.get?_set] at hn
      split at hn
      · cases hn
      · rename_i hne
        rw [hwants, hother c n hne]
        exact h.absent c n hn
    nodup := h.nodup.erase name }

/-- A service sends a frame. -/
theorem Sound.frame (h : st.Sound key events) {name : ServiceName} {s : ServiceInner φ}
    (hs : st.services.get? name = some s) (msg : φ) :
    Sound key { st with
      services := st.services.set name (s.sendVideoFrameWithJoin msg (key msg)).1 }
      (events ++ [.frame name msg]) := by
  have hwants : ∀ c n, wants c n (events ++ [.frame name msg]) = wants c n events :=
    fun c n => wants_concat c n events _
  have hinterval : ∀ c n, interval c n (events ++ [.frame name msg]) =
      if name = n then (interval c n events).map (· ++ [msg]) else interval c n events :=
    fun c n => interval_concat c n events _
  have hsome : ∀ c n, (interval c n (events ++ [.frame name msg])).isSome =
      (interval c n events).isSome := by
    intro c n
    rw [hinterval]
    split <;> simp
  have hsnapshot : (s.sendVideoFrameWithJoin msg (key msg)).1.needSnapshot = s.needSnapshot := by
    cases key msg <;> rfl
  exact {
    shows := by
      intro c n s' hs'
      simp only [LinkedMap.get?_set] at hs'
      rw [hinterval]
      by_cases hn : n = name
      · subst hn
        rw [if_pos rfl] at hs' ⊢
        obtain rfl := Option.some.inj hs'
        obtain ⟨hneed, hshows⟩ := h.shows c n s hs
        rw [hsnapshot]
        exact ⟨hneed, hshows.frame⟩
      · rw [if_neg hn] at hs'
        rw [if_neg (Ne.symm hn)]
        exact h.shows c n s' hs'
    wanted := by
      intro c n s' hs'
      have hold : ∃ old, st.services.get? n = some old := by
        simp only [LinkedMap.get?_set] at hs'
        by_cases hn : n = name
        · exact ⟨s, hn ▸ hs⟩
        · rw [if_neg hn] at hs'
          exact ⟨s', hs'⟩
      obtain ⟨old, hold⟩ := hold
      rw [hwants, hsome]
      exact h.wanted c n old hold
    absent := by
      intro c n hn
      simp only [LinkedMap.get?_set] at hn
      split at hn
      · cases hn
      · rename_i hne
        rw [hwants, hinterval, if_neg (Ne.symm hne)]
        exact h.absent c n hn
    nodup := h.nodup }

theorem Sound.apply (h : st.Sound key events) (hstep : st.applyEvent? key event = some st') :
    st'.Sound key (events ++ [event]) := by
  cases event with
  | request conn source add sub set available =>
      simp only [applyEvent?] at hstep
      cases hvalid : CaptureDisplaysOperation.validatedRequest add sub set available with
      | none =>
          rw [hvalid] at hstep
          obtain rfl : st = st' := Option.some.inj hstep
          have hwants : ∀ c n, wants c n
              (events ++ [.request conn source add sub set available]) = wants c n events := by
            intro c n
            rw [wants_concat, wantsStep, hvalid, ite_self]
          have hinterval : ∀ c n, interval c n
              (events ++ [.request conn source add sub set available]) = interval c n events :=
            fun c n => interval_concat c n events _
          exact {
            shows := fun c n s hs => by rw [hinterval]; exact h.shows c n s hs
            wanted := fun c n s hs => by rw [hwants, hinterval]; exact h.wanted c n s hs
            absent := fun c n hn => by rw [hwants, hinterval]; exact h.absent c n hn
            nodup := h.nodup }
      | some valid =>
          obtain ⟨operation, displays⟩ := valid
          rw [hvalid] at hstep
          by_cases hidle : st.remaining = []
          · simp only [hidle, ne_eq, not_true_eq_false, if_false] at hstep
            rw [← Option.some.inj hstep]
            exact h.request hidle hvalid
          · simp [hidle] at hstep
  | removal conn =>
      simp only [applyEvent?] at hstep
      by_cases hidle : st.remaining = []
      · simp only [hidle, ne_eq, not_true_eq_false, if_false] at hstep
        rw [← Option.some.inj hstep]
        exact h.removal hidle conn
      · simp [hidle] at hstep
  | visit task name =>
      simp only [applyEvent?] at hstep
      split at hstep
      · cases hstep
      · rename_i hheld
        simp only [ne_eq, not_or, not_not] at hheld
        obtain ⟨rfl, hname⟩ := hheld
        obtain ⟨s, hs, rfl⟩ := Option.map_eq_some_iff.mp hstep
        exact h.visit hs hname
  | frame name msg =>
      obtain ⟨s, hs, rfl⟩ := Option.map_eq_some_iff.mp hstep
      exact h.frame hs msg

theorem sound_run {names : List ServiceName} (hrun : run? key names events = some st) :
    st.Sound key events := by
  have hsteps := run_of_foldlM hrun
  clear hrun
  induction hsteps with
  | nil => exact sound_start names
  | snoc _ hstep ih => exact ih.apply hstep

/-! ## Every viewer's view -/

/-- Between two requests a connection is subscribed to the services its own requests
name.  Of each it has been given what the service sent in the present subscription,
from the first keyframe on.  Tasks of other connections, and those of its own that
keep the service, leave the subscription as it is. -/
theorem gapFree {names : List ServiceName} (hrun : run? key names events = some st) :
    (st.remaining = [] → ∀ conn name s, st.services.get? name = some s →
      s.isSubed conn = wants conn name events) ∧
    (∀ conn name s, st.services.get? name = some s →
      s.received conn = (interval conn name events).map (fromKeyframe key)) ∧
    (∀ conn name task n, task.conn ≠ conn ∨ n ≠ name ∨
        ((interval conn name events).isSome = true ∧ task.target name true = true) →
      interval conn name (events ++ [.visit task n]) = interval conn name events) := by
  have hsound := sound_run hrun
  refine ⟨?_, ?_, ?_⟩
  · intro hidle conn name s hs
    calc s.isSubed conn = (interval conn name events).isSome :=
          (hsound.shows conn name s hs).2.isSubed_eq
      _ = wants conn name events := (hsound.wants_of_idle hidle conn name).symm
  · intro conn name s hs
    exact (hsound.shows conn name s hs).2.received_eq
  · intro conn name task n hkeeps
    rw [interval_concat, intervalStep]
    rcases hkeeps with hconn | hname | ⟨hsome, htarget⟩
    · exact if_neg fun hboth => hconn hboth.1
    · exact if_neg fun hboth => hname hboth.2
    · rw [hsome, htarget]
      obtain ⟨frames, hframes⟩ := Option.isSome_iff_exists.mp hsome
      rw [hframes]
      split <;> rfl

/-- Two viewers of one monitor: the second waits for the next keyframe, the first goes
on across its own retaining request. -/
def twoViewers : List (ServerEvent (ℕ × Bool)) :=
  [.request 1 .monitor [] [] [0] 1, .visit (.capture 1 .set [(.monitor, 0)]) (.monitor, 0),
    .frame (.monitor, 0) (1, true), .request 2 .monitor [0] [] [] 1,
    .visit (.capture 2 .includeListed [(.monitor, 0)]) (.monitor, 0),
    .frame (.monitor, 0) (2, false), .request 1 .monitor [] [] [0] 1,
    .visit (.capture 1 .set [(.monitor, 0)]) (.monitor, 0), .frame (.monitor, 0) (3, true)]

theorem gapFree_twoViewers : ∃ st s,
    run? Prod.snd [(.monitor, 0)] twoViewers = some st ∧
    st.services.get? (.monitor, 0) = some s ∧
    s.received 1 = some [(1, true), (2, false), (3, true)] ∧ s.received 2 = some [(3, true)] := by
  have hrun : run? Prod.snd [(.monitor, 0)] twoViewers =
      some ((run? Prod.snd [(.monitor, 0)] twoViewers).get (by decide)) :=
    (Option.some_get _).symm
  obtain ⟨-, hreceived, -⟩ := gapFree hrun
  refine ⟨_, (((run? Prod.snd [(.monitor, 0)] twoViewers).get (by decide)).services.get?
    (.monitor, 0)).get (by decide), hrun, (Option.some_get _).symm, ?_, ?_⟩
  · rw [hreceived 1 (.monitor, 0) _ (Option.some_get _).symm]
    decide
  · rw [hreceived 2 (.monitor, 0) _ (Option.some_get _).symm]
    decide

end Server

end Runs

end RustAdmin.Service
