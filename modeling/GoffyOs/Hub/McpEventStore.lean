import GoffyOs.Lib.Machine
import GoffyOs.Lib.WeightedQueue
import GoffyOs.Python.Text
import Mathlib.Data.List.Nodup

/-!
# Replay of tool-list changes

`BoundedMcpEventStore` (`goffy_hub/mcp_server.py`) keeps the tool-list changes of an MCP session for a
client that reconnects with the id of the last event it has seen. Ids are numbered, also those of
events that are not kept; old events are dropped when there are too many or when they are too large
together. A client whose event is not kept any more, or was never kept, gets a resync event instead.

* The store's methods run under its lock up to the sends, which use a copy: a step is a whole method;
* of a JSON-RPC message the store uses the method of a notification and the dumped JSON;
* `appended` are the events that a history has added to the store. What is retained is an end of this
  list (`EventStoreInv`), from which `event_store_loses_no_change` follows.
-/

namespace GoffyHub.McpEventStore

open Python

/-- `GET_STREAM_KEY` of the SDK. -/
def getStreamKey : Str := "_GET_stream".toList

/-- A `JSONRPCMessage`: its method when it is a notification, and `model_dump_json` of it. -/
structure JSONRPCMessage where
  notification : Option Str
  json : Str
  deriving DecidableEq

/-- `_tool_list_changed_message`. -/
def toolListChangedMessage : JSONRPCMessage where
  notification := some "notifications/tools/list_changed".toList
  json := "\x7b\"method\":\"notifications/tools/list_changed\",".toList ++
    "\"jsonrpc\":\"2.0\"\x7d".toList

/-- The message is a notification of a tool-list change. -/
def JSONRPCMessage.isListChanged (message : JSONRPCMessage) : Bool :=
  message.notification = some "notifications/tools/list_changed".toList

/-- `_is_replayable_tool_list_event`. -/
def isReplayableToolListEvent (streamId : Str) (message : Option JSONRPCMessage) : Bool :=
  if streamId ≠ getStreamKey then false
  else match message with
    | none => true
    | some message => message.isListChanged

/-- `_event_size_bytes`. The ids are ASCII. -/
def eventSizeBytes (eventId streamId : Str) (message : Option JSONRPCMessage) : ℕ :=
  let messageBytes := match message with
    | none => 0
    | some message => (utf8 message.json).length
  eventId.length + (utf8 streamId).length + messageBytes

/-- `_StoredMcpEvent`. -/
structure StoredMcpEvent where
  eventId : Str
  streamId : Str
  message : Option JSONRPCMessage
  sizeBytes : ℕ
  deriving DecidableEq

/-- What is fixed when a store is made; the limits are checked to be positive. -/
structure Settings where
  maxEvents : ℕ
  maxBytes : ℕ
  eventPrefix : Str
  maxEvents_pos : 0 < maxEvents
  maxBytes_pos : 0 < maxBytes

/-- The fields of the store that change. -/
structure EventStore where
  nextSequence : ℕ
  events : List StoredMcpEvent
  storedBytes : ℤ
  deriving DecidableEq

/-- An `EventMessage`, as given to the callback. -/
structure EventMessage where
  message : JSONRPCMessage
  eventId : Str
  deriving DecidableEq

namespace EventStore

def empty : EventStore := ⟨0, [], 0⟩

/-- The id with a number. -/
def idOf (settings : Settings) (n : ℕ) : Str := settings.eventPrefix ++ '.' :: natStr n

/-- `_next_event_id`. -/
def nextEventId (settings : Settings) (s : EventStore) : EventStore × Str :=
  ({ s with nextSequence := s.nextSequence + 1 }, idOf settings (s.nextSequence + 1))

/-- `_retain_event`. It fails where `popleft` would find the deque empty. -/
def retainEvent (settings : Settings) (s : EventStore) (eventId streamId : Str)
    (message : Option JSONRPCMessage) : Option (EventStore × Option StoredMcpEvent) :=
  let sizeBytes := eventSizeBytes eventId streamId message
  if settings.maxBytes < sizeBytes then some (s, none)
  else do
    let event := ⟨eventId, streamId, message, sizeBytes⟩
    let (events, storedBytes) ← WeightedQueue.evict StoredMcpEvent.sizeBytes settings.maxEvents
      settings.maxBytes (s.events ++ [event]) (s.storedBytes + sizeBytes)
    return ({ s with events, storedBytes }, some event)

/-- `store_event`. -/
def storeEvent (settings : Settings) (s : EventStore) (streamId : Str)
    (message : Option JSONRPCMessage) : Option (EventStore × Str) :=
  let (s, eventId) := s.nextEventId settings
  if isReplayableToolListEvent streamId message = false then some (s, eventId)
  else do
    let (s, _) ← s.retainEvent settings eventId streamId message
    return (s, eventId)

/-- The events after the one with an id, with its own. -/
def after? (lastEventId : Str) : List StoredMcpEvent → Option (StoredMcpEvent × List StoredMcpEvent)
  | [] => none
  | event :: events =>
    if event.eventId = lastEventId then some (event, events) else after? lastEventId events

/-- The stream and the events to replay for a cursor, and whether a resync event follows. -/
def replayPlan (s : EventStore) (lastEventId : Str) : Str × List StoredMcpEvent × Bool :=
  match after? lastEventId s.events with
  | none => (getStreamKey, [], true)
  | some (cursor, replay) =>
    (cursor.streamId, replay, cursor.message.isSome || !replay.isEmpty)

/-- The resync event: a list change that is sent also when it is not kept. -/
def resync (settings : Settings) (s : EventStore) : Option (EventStore × StoredMcpEvent) := do
  let (s, eventId) := s.nextEventId settings
  let (s, retained) ← s.retainEvent settings eventId getStreamKey (some toolListChangedMessage)
  return (s, retained.getD ⟨eventId, getStreamKey, some toolListChangedMessage, 0⟩)

/-- The messages that the callback gets. -/
def sent (streamId : Str) (replay : List StoredMcpEvent) : List EventMessage :=
  replay.filterMap fun event => match event.message with
    | none => none
    | some message => if event.streamId = streamId then some ⟨message, event.eventId⟩ else none

/-- `replay_events_after`: the store, the id of the resync event and the messages. -/
def replayEventsAfter (settings : Settings) (s : EventStore) (lastEventId : Str) :
    Option (EventStore × Option Str × List EventMessage) :=
  let (streamId, replay, requiresResync) := s.replayPlan lastEventId
  if requiresResync then do
    let (s, event) ← s.resync settings
    return (s, some event.eventId, sent streamId (replay ++ [event]))
  else some (s, none, sent streamId replay)

end EventStore

inductive Action
  | store (streamId : Str) (message : Option JSONRPCMessage)
  | replay (lastEventId : Str)

/-- What a call has returned. -/
inductive Event
  | stored (eventId streamId : Str) (message : Option JSONRPCMessage)
  | replayed (resyncEventId : Option Str) (sent : List EventMessage)
  deriving DecidableEq

def step (settings : Settings) : Machine.Step EventStore Action Event
  | s, .store streamId message => do
    let (s, eventId) ← s.storeEvent settings streamId message
    return (s, [.stored eventId streamId message])
  | s, .replay lastEventId => do
    let (s, resyncEventId, sent) ← s.replayEventsAfter settings lastEventId
    return (s, [.replayed resyncEventId sent])

/-! ### One call -/

section Calls

variable {settings : Settings} {s s' : EventStore}

theorem idOf_injective (settings : Settings) : Function.Injective (EventStore.idOf settings) := by
  intro m n h
  have hnat := List.append_cancel_left h
  exact natStr_injective (List.cons.inj hnat).2

/-- The counter of the bytes is right. -/
def Weighed (s : EventStore) : Prop :=
  s.storedBytes = WeightedQueue.total StoredMcpEvent.sizeBytes s.events

/-- The event that a retained message becomes. -/
def storedEvent (eventId streamId : Str) (message : Option JSONRPCMessage) : StoredMcpEvent :=
  ⟨eventId, streamId, message, eventSizeBytes eventId streamId message⟩

/-- What a call that retains an event leaves: the event behind those of the old ones that fit. -/
structure Retained (settings : Settings) (s s' : EventStore) (event : StoredMcpEvent) : Prop where
  events : ∃ older, s'.events = older ++ [event] ∧ older <:+ s.events
  weighed : Weighed s'
  length_le : s'.events.length ≤ settings.maxEvents
  total_le : WeightedQueue.total StoredMcpEvent.sizeBytes s'.events ≤ settings.maxBytes
  nextSequence : s'.nextSequence = s.nextSequence

theorem retainEvent_large (eventId streamId : Str) (message : Option JSONRPCMessage)
    (h : settings.maxBytes < eventSizeBytes eventId streamId message) :
    s.retainEvent settings eventId streamId message = some (s, none) := if_pos h

theorem retainEvent_fits (hs : Weighed s) (eventId streamId : Str) (message : Option JSONRPCMessage)
    (h : eventSizeBytes eventId streamId message ≤ settings.maxBytes) :
    ∃ s', s.retainEvent settings eventId streamId message =
        some (s', some (storedEvent eventId streamId message)) ∧
      Retained settings s s' (storedEvent eventId streamId message) := by
  have hfits : (storedEvent eventId streamId message).sizeBytes ≤ settings.maxBytes := h
  obtain ⟨older, hevict, hsuffix, hlength, htotal⟩ :=
    WeightedQueue.evict_push StoredMcpEvent.sizeBytes settings.maxEvents_pos hfits s.events
  have hcounter : s.storedBytes + (eventSizeBytes eventId streamId message : ℤ) =
      WeightedQueue.total StoredMcpEvent.sizeBytes
        (s.events ++ [storedEvent eventId streamId message]) := by
    rw [hs, WeightedQueue.total_append]
    simp [WeightedQueue.total, storedEvent]
  refine ⟨⟨s.nextSequence, older ++ [storedEvent eventId streamId message],
    WeightedQueue.total StoredMcpEvent.sizeBytes
      (older ++ [storedEvent eventId streamId message])⟩, ?_,
    ⟨older, rfl, hsuffix⟩, rfl, hlength, htotal, rfl⟩
  unfold EventStore.retainEvent
  simp only
  rw [if_neg (Nat.not_lt.2 h), hcounter]
  rw [← storedEvent, hevict]
  rfl

variable (settings) in
/-- What `store_event` does: nothing is kept of an event that is not replayable or too large. -/
theorem storeEvent_spec (hs : Weighed s) (streamId : Str) (message : Option JSONRPCMessage) :
    ∃ s', s.storeEvent settings streamId message =
        some (s', EventStore.idOf settings (s.nextSequence + 1)) ∧
      s'.nextSequence = s.nextSequence + 1 ∧
      if isReplayableToolListEvent streamId message = true ∧
          eventSizeBytes (EventStore.idOf settings (s.nextSequence + 1)) streamId message ≤
            settings.maxBytes then
        Retained settings { s with nextSequence := s.nextSequence + 1 } s'
          (storedEvent (EventStore.idOf settings (s.nextSequence + 1)) streamId message)
      else s'.events = s.events ∧ s'.storedBytes = s.storedBytes := by
  unfold EventStore.storeEvent EventStore.nextEventId
  simp only
  cases hreplayable : isReplayableToolListEvent streamId message with
  | false => exact ⟨_, rfl, rfl, by simp⟩
  | true =>
    rw [if_neg (by simp)]
    by_cases hfits : eventSizeBytes (EventStore.idOf settings (s.nextSequence + 1)) streamId message ≤
        settings.maxBytes
    · have hs₁ : Weighed { s with nextSequence := s.nextSequence + 1 } := hs
      obtain ⟨s', hretain, hretained⟩ := retainEvent_fits hs₁ _ streamId message hfits
      refine ⟨s', ?_, hretained.nextSequence, ?_⟩
      · rw [hretain]
        rfl
      · rw [if_pos ⟨rfl, hfits⟩]
        exact hretained
    · refine ⟨{ s with nextSequence := s.nextSequence + 1 }, ?_, rfl, ?_⟩
      · rw [retainEvent_large _ _ _ (Nat.lt_of_not_le hfits)]
        rfl
      · simp [hfits]

variable (settings) in
/-- What the resync does: its event has a new id and is kept unless it is too large. -/
theorem resync_spec (hs : Weighed s) :
    ∃ s' event, s.resync settings = some (s', event) ∧
      event.eventId = EventStore.idOf settings (s.nextSequence + 1) ∧
      event.streamId = getStreamKey ∧ event.message = some toolListChangedMessage ∧
      s'.nextSequence = s.nextSequence + 1 ∧
      if eventSizeBytes (EventStore.idOf settings (s.nextSequence + 1)) getStreamKey
          (some toolListChangedMessage) ≤ settings.maxBytes then
        Retained settings { s with nextSequence := s.nextSequence + 1 } s'
          (storedEvent (EventStore.idOf settings (s.nextSequence + 1)) getStreamKey
            (some toolListChangedMessage))
      else s'.events = s.events ∧ s'.storedBytes = s.storedBytes := by
  unfold EventStore.resync EventStore.nextEventId
  simp only
  by_cases hfits : eventSizeBytes (EventStore.idOf settings (s.nextSequence + 1)) getStreamKey
      (some toolListChangedMessage) ≤ settings.maxBytes
  · have hs₁ : Weighed { s with nextSequence := s.nextSequence + 1 } := hs
    obtain ⟨s', hretain, hretained⟩ :=
      retainEvent_fits hs₁ _ getStreamKey (some toolListChangedMessage) hfits
    rw [hretain]
    refine ⟨s', _, rfl, rfl, rfl, rfl, hretained.nextSequence, ?_⟩
    rw [if_pos hfits]
    exact hretained
  · rw [retainEvent_large _ _ _ (Nat.lt_of_not_le hfits)]
    refine ⟨_, _, rfl, rfl, rfl, rfl, rfl, ?_⟩
    simp [hfits]

/-- A cursor that is found splits the events. -/
theorem after?_eq_some {lastEventId : Str} {events : List StoredMcpEvent} {cursor : StoredMcpEvent}
    {replay : List StoredMcpEvent}
    (h : EventStore.after? lastEventId events = some (cursor, replay)) :
    cursor.eventId = lastEventId ∧ ∃ before, events = before ++ cursor :: replay := by
  induction events with
  | nil => cases h
  | cons event events ih =>
    rw [EventStore.after?] at h
    split at h
    · rename_i heq
      cases h
      exact ⟨heq, [], rfl⟩
    · obtain ⟨hid, before, rfl⟩ := ih h
      exact ⟨hid, event :: before, rfl⟩

/-- An event that is retained is found, when no other has its id. -/
theorem after?_of_split {before replay : List StoredMcpEvent} {cursor : StoredMcpEvent}
    (h : cursor.eventId ∉ before.map StoredMcpEvent.eventId) :
    EventStore.after? cursor.eventId (before ++ cursor :: replay) = some (cursor, replay) := by
  induction before with
  | nil => simp [EventStore.after?]
  | cons event before ih =>
    simp only [List.map_cons, List.mem_cons, not_or] at h
    rw [List.cons_append, EventStore.after?, if_neg (Ne.symm h.1)]
    exact ih h.2

end Calls

/-! ### Histories -/

/-- The ids that a call has issued. -/
def Event.issuedIds : Event → List Str
  | .stored eventId _ _ => [eventId]
  | .replayed resyncEventId _ => resyncEventId.toList

/-- The event that a call has added to the store. -/
def Event.appended (settings : Settings) : Event → Option StoredMcpEvent
  | .stored eventId streamId message =>
    if isReplayableToolListEvent streamId message = true ∧
        eventSizeBytes eventId streamId message ≤ settings.maxBytes then
      some (storedEvent eventId streamId message)
    else none
  | .replayed (some eventId) _ =>
    if eventSizeBytes eventId getStreamKey (some toolListChangedMessage) ≤ settings.maxBytes then
      some (storedEvent eventId getStreamKey (some toolListChangedMessage))
    else none
  | .replayed none _ => none

/-- The ids that were issued, in their order. -/
def issuedIds (es : List Event) : List Str := es.flatMap Event.issuedIds

/-- The events that were added to the store, in their order. -/
def appended (settings : Settings) (es : List Event) : List StoredMcpEvent :=
  es.filterMap (Event.appended settings)

section Histories

variable {settings : Settings} {s s' : EventStore} {es out : List Event} {a : Action}

@[simp] theorem issuedIds_append (es es' : List Event) :
    issuedIds (es ++ es') = issuedIds es ++ issuedIds es' := List.flatMap_append

@[simp] theorem appended_append (es es' : List Event) :
    appended settings (es ++ es') = appended settings es ++ appended settings es' :=
  List.filterMap_append

theorem isReplayable_toolListChanged :
    isReplayableToolListEvent getStreamKey (some toolListChangedMessage) = true := by
  simp [isReplayableToolListEvent, JSONRPCMessage.isListChanged, toolListChangedMessage]

/-- An added event has an id that was issued in the call. -/
theorem Event.appended_eq_some {e : Event} {event : StoredMcpEvent}
    (h : e.appended settings = some event) :
    e.issuedIds = [event.eventId] ∧
      isReplayableToolListEvent event.streamId event.message = true := by
  cases e with
  | stored eventId streamId message =>
    simp only [Event.appended] at h
    split at h
    · rename_i hkept
      cases h
      exact ⟨rfl, hkept.1⟩
    · cases h
  | replayed resyncEventId sent =>
    cases resyncEventId with
    | none => cases h
    | some eventId =>
      simp only [Event.appended] at h
      split at h
      · cases h
        exact ⟨rfl, isReplayable_toolListChanged⟩
      · cases h

theorem appended_ids_sublist (es : List Event) :
    ((appended settings es).map StoredMcpEvent.eventId).Sublist (issuedIds es) := by
  induction es with
  | nil => exact List.Sublist.slnil
  | cons e es ih =>
    rw [appended, List.filterMap_cons, issuedIds, List.flatMap_cons]
    cases h : e.appended settings with
    | none => exact ih.trans (List.sublist_append_right _ _)
    | some event =>
      rw [(Event.appended_eq_some h).1]
      exact ih.cons_cons _

theorem replayable_of_mem_appended {event : StoredMcpEvent} (h : event ∈ appended settings es) :
    isReplayableToolListEvent event.streamId event.message = true := by
  obtain ⟨e, -, he⟩ := List.mem_filterMap.1 h
  exact (Event.appended_eq_some he).2

/-- What the history says about the store. -/
structure EventStoreInv (settings : Settings) (s : EventStore) (es : List Event) : Prop where
  issued : issuedIds es = (List.range s.nextSequence).map fun n => EventStore.idOf settings (n + 1)
  kept : s.events <:+ appended settings es
  weighed : Weighed s
  length_le : s.events.length ≤ settings.maxEvents
  total_le : WeightedQueue.total StoredMcpEvent.sizeBytes s.events ≤ settings.maxBytes

/-- One more id, and perhaps one more event. -/
theorem EventStoreInv.next (h : EventStoreInv settings s es) {e : Event}
    (hissued : e.issuedIds = [EventStore.idOf settings (s.nextSequence + 1)])
    (hnext : s'.nextSequence = s.nextSequence + 1)
    (hevents : match e.appended settings with
      | some event => Retained settings { s with nextSequence := s.nextSequence + 1 } s' event
      | none => s'.events = s.events ∧ s'.storedBytes = s.storedBytes) :
    EventStoreInv settings s' (es ++ [e]) := by
  have hids : issuedIds (es ++ [e]) =
      (List.range s'.nextSequence).map fun n => EventStore.idOf settings (n + 1) := by
    rw [issuedIds_append, h.issued, hnext, List.range_succ, List.map_append]
    simp [issuedIds, hissued]
  cases happended : e.appended settings with
  | none =>
    rw [happended] at hevents
    refine ⟨hids, ?_, ?_, ?_, ?_⟩
    · simpa [appended_append, appended, happended, hevents.1] using h.kept
    · rw [Weighed, hevents.1, hevents.2]
      exact h.weighed
    · exact hevents.1 ▸ h.length_le
    · exact hevents.1 ▸ h.total_le
  | some event =>
    rw [happended] at hevents
    obtain ⟨older, hnew, hsuffix⟩ := hevents.events
    refine ⟨hids, ?_, hevents.weighed, hevents.length_le, hevents.total_le⟩
    -- the old events that are left are an end of those before
    obtain ⟨dropped, hdropped⟩ := hsuffix.trans h.kept
    refine ⟨dropped, ?_⟩
    rw [hnew, ← List.append_assoc, hdropped, appended_append]
    simp [appended, happended]

theorem EventStoreInv.step (h : EventStoreInv settings s es)
    (hs : McpEventStore.step settings s a = some (s', out)) :
    EventStoreInv settings s' (es ++ out) := by
  cases a with
  | store streamId message =>
    obtain ⟨s₁, hstore, hnext, hevents⟩ := storeEvent_spec settings h.weighed streamId message
    rw [McpEventStore.step, hstore] at hs
    cases hs
    refine h.next rfl hnext ?_
    simp only [Event.appended]
    split at hevents
    · rename_i hkept
      rw [if_pos hkept]
      exact hevents
    · rename_i hkept
      rw [if_neg hkept]
      exact hevents
  | replay lastEventId =>
    rw [McpEventStore.step, EventStore.replayEventsAfter] at hs
    simp only at hs
    split at hs
    · obtain ⟨s₁, event, hresync, hid, -, -, hnext, hevents⟩ := resync_spec settings h.weighed
      rw [hresync] at hs
      cases hs
      refine h.next (by simp [Event.issuedIds, hid]) hnext ?_
      simp only [Event.appended, hid]
      split at hevents
      · rename_i hkept
        rw [if_pos hkept]
        exact hevents
      · rename_i hkept
        rw [if_neg hkept]
        exact hevents
    · cases hs
      refine ⟨?_, ?_, h.weighed, h.length_le, h.total_le⟩
      · simpa [issuedIds, Event.issuedIds] using h.issued
      · rw [appended_append, show appended settings [Event.replayed none _] = [] from rfl,
          List.append_nil]
        exact h.kept

theorem eventStoreInv_of_reaches
    (h : Machine.Reaches (McpEventStore.step settings) Machine.anyStep EventStore.empty s es) :
    EventStoreInv settings s es := by
  refine h.invariant ⟨rfl, List.suffix_rfl, rfl, ?_, ?_⟩ fun _ _ _ _ _ hinv _ hs => hinv.step hs
  · exact Nat.zero_le _
  · exact Nat.zero_le _

/-! ### What a replay sends -/

theorem replayable_iff {streamId : Str} {message : Option JSONRPCMessage} :
    isReplayableToolListEvent streamId message = true ↔
      streamId = getStreamKey ∧ ∀ m, message = some m → m.isListChanged = true := by
  unfold isReplayableToolListEvent
  by_cases hstream : streamId = getStreamKey <;> cases message <;> simp [hstream]

/-- The messages of some events. -/
def messages (events : List StoredMcpEvent) : List EventMessage :=
  events.filterMap fun event => event.message.map fun message => ⟨message, event.eventId⟩

theorem sent_eq_messages {replay : List StoredMcpEvent}
    (h : ∀ event ∈ replay, event.streamId = getStreamKey) :
    EventStore.sent getStreamKey replay = messages replay := by
  refine List.filterMap_congr fun event hevent => ?_
  cases event.message with
  | none => rfl
  | some message => simp [h event hevent]

/-- What a replay for a cursor sends. -/
structure ReplaySends (s : EventStore) (lastEventId : Str) (sent : List EventMessage) : Prop where
  /-- an event that is not retained: a resync event alone -/
  unknown : lastEventId ∉ s.events.map StoredMcpEvent.eventId →
    ∃ eventId, sent = [⟨toolListChangedMessage, eventId⟩]
  /-- a retained event: what comes after it, and a resync event if there was any change -/
  known : ∀ before cursor later, s.events = before ++ cursor :: later →
    cursor.eventId = lastEventId →
      (sent = [] ∧ cursor.message = none ∧ later = []) ∨
        ∃ eventId, sent = messages later ++ [⟨toolListChangedMessage, eventId⟩]

theorem EventStoreInv.nodup (h : EventStoreInv settings s es) :
    (issuedIds es).Nodup ∧ (s.events.map StoredMcpEvent.eventId).Nodup := by
  have hids : (issuedIds es).Nodup := by
    rw [h.issued]
    refine List.Nodup.map (fun m n hmn => ?_) List.nodup_range
    exact Nat.succ_injective (idOf_injective settings hmn)
  exact ⟨hids, hids.sublist ((h.kept.sublist.map _).trans (appended_ids_sublist es))⟩

theorem EventStoreInv.getStream (h : EventStoreInv settings s es) {event : StoredMcpEvent}
    (hevent : event ∈ s.events) :
    event.streamId = getStreamKey ∧ ∀ m, event.message = some m → m.isListChanged = true :=
  replayable_iff.1 (replayable_of_mem_appended (h.kept.mem hevent))

/-- A retained event is found. -/
theorem EventStoreInv.after? (h : EventStoreInv settings s es) {before later : List StoredMcpEvent}
    {cursor : StoredMcpEvent} (hsplit : s.events = before ++ cursor :: later) :
    EventStore.after? cursor.eventId s.events = some (cursor, later) := by
  have hnodup := h.nodup.2
  rw [hsplit, List.map_append, List.map_cons] at hnodup
  rw [hsplit]
  exact after?_of_split fun hmem => (List.nodup_append.1 hnodup).2.2 _ hmem _ List.mem_cons_self rfl

theorem EventStoreInv.replay (h : EventStoreInv settings s es) (lastEventId : Str) :
    ∃ s' resyncEventId sent,
      s.replayEventsAfter settings lastEventId = some (s', resyncEventId, sent) ∧
        ReplaySends s lastEventId sent := by
  obtain ⟨s₁, event, hresync, -, hstream, hmessage, -⟩ := resync_spec settings h.weighed
  unfold EventStore.replayEventsAfter EventStore.replayPlan
  cases hafter : EventStore.after? lastEventId s.events with
  | none =>
    simp only [if_true, hresync]
    refine ⟨s₁, _, _, rfl, fun _ => ⟨event.eventId, ?_⟩, fun before cursor later hsplit hid => ?_⟩
    · simp [EventStore.sent, hstream, hmessage]
    · rw [← hid, h.after? hsplit] at hafter
      cases hafter
  | some found =>
    obtain ⟨cursor, later⟩ := found
    obtain ⟨hid, before, hsplit⟩ := after?_eq_some hafter
    have hget : ∀ event ∈ cursor :: later, event.streamId = getStreamKey := by
      intro event hevent
      have hmem : event ∈ s.events := by
        rw [hsplit]
        exact List.mem_append_right _ hevent
      exact (h.getStream hmem).1
    have hcursor : cursor.streamId = getStreamKey := hget cursor List.mem_cons_self
    have hlater : ∀ event ∈ later, event.streamId = getStreamKey :=
      fun event hevent => hget event (List.mem_cons_of_mem _ hevent)
    have hretained : ¬ lastEventId ∉ s.events.map StoredMcpEvent.eventId := by
      rw [hsplit, ← hid]
      simp
    have hsame : ∀ before' cursor' later', s.events = before' ++ cursor' :: later' →
        cursor'.eventId = lastEventId → cursor' = cursor ∧ later' = later := by
      intro before' cursor' later' hsplit' hid'
      rw [← hid', h.after? hsplit'] at hafter
      simpa using hafter
    simp only [hcursor]
    split
    · rw [hresync]
      refine ⟨s₁, _, _, rfl, fun hunknown => absurd hunknown hretained,
        fun before' cursor' later' hsplit' hid' => Or.inr ⟨event.eventId, ?_⟩⟩
      obtain ⟨-, rfl⟩ := hsame before' cursor' later' hsplit' hid'
      have hall : ∀ e ∈ later' ++ [event], e.streamId = getStreamKey := by
        intro e he
        rcases List.mem_append.1 he with he | he
        · exact hlater e he
        · rw [List.mem_singleton.1 he, hstream]
      rw [sent_eq_messages hall]
      simp [messages, hmessage]
    · rename_i hquiet
      refine ⟨s, none, _, rfl, fun hunknown => absurd hunknown hretained,
        fun before' cursor' later' hsplit' hid' => Or.inl ?_⟩
      obtain ⟨rfl, rfl⟩ := hsame before' cursor' later' hsplit' hid'
      simp only [Bool.or_eq_true, Bool.not_eq_true', not_or, Bool.not_eq_true,
        Bool.not_eq_false, Option.isSome_eq_false_iff, Option.isNone_iff_eq_none,
        List.isEmpty_iff] at hquiet
      obtain ⟨hnone, rfl⟩ := hquiet
      exact ⟨rfl, hnone, rfl⟩

/-- The event of a stored list change is retained as long as any event that was issued before it. -/
theorem EventStoreInv.later_ne_nil (h : EventStoreInv settings s es) {pre post : List Event}
    {e : Event} {event : StoredMcpEvent} (hes : es = pre ++ e :: post)
    (happended : e.appended settings = some event) {before later : List StoredMcpEvent}
    {cursor : StoredMcpEvent} (hsplit : s.events = before ++ cursor :: later)
    (hissued : cursor.eventId ∈ issuedIds pre) : later ≠ [] := by
  rintro rfl
  have hids := h.nodup.1
  rw [hes, issuedIds_append, issuedIds, issuedIds, List.flatMap_cons, ← issuedIds, ← issuedIds,
    (Event.appended_eq_some happended).1] at hids
  have hdisjoint := (List.nodup_append.1 hids).2.2
  -- the cursor is the last event that was added, so its id was issued with `e` or later
  obtain ⟨dropped, hdropped⟩ := h.kept
  rw [hes, appended_append, hsplit, appended, appended, List.filterMap_cons, happended,
    ← appended, ← appended, ← List.append_assoc] at hdropped
  have hlast : cursor ∈ event :: appended settings post := by
    have hnonempty : event :: appended settings post ≠ [] := List.cons_ne_nil _ _
    have hlast := congrArg List.getLast? hdropped
    rw [List.getLast?_append, List.getLast?_append_of_ne_nil _ hnonempty] at hlast
    exact List.mem_of_getLast? (by simpa using hlast.symm)
  have hid : cursor.eventId ∈ [event.eventId] ++ issuedIds post := by
    rcases List.mem_cons.1 hlast with rfl | hmem
    · exact List.mem_append_left _ (List.mem_singleton_self _)
    · exact List.mem_append_right _
        ((appended_ids_sublist post).subset (List.mem_map_of_mem hmem))
  exact hdisjoint _ hissued _ hid rfl

/-- The bytes, the number, the ids and the kind of the retained events. -/
structure Bookkept (settings : Settings) (s : EventStore) : Prop where
  storedBytes : s.storedBytes = (s.events.map StoredMcpEvent.sizeBytes).sum
  storedBytes_le : s.storedBytes ≤ settings.maxBytes
  length_le : s.events.length ≤ settings.maxEvents
  ids_nodup : (s.events.map StoredMcpEvent.eventId).Nodup
  ids_increasing : ∃ numbers : List ℕ, numbers.Pairwise (· < ·) ∧
    s.events.map StoredMcpEvent.eventId = numbers.map (EventStore.idOf settings)
  replayable : ∀ event ∈ s.events, event.streamId = getStreamKey ∧
    ∀ message, event.message = some message → message.isListChanged = true

theorem EventStoreInv.bookkept (h : EventStoreInv settings s es) : Bookkept settings s where
  storedBytes := h.weighed
  storedBytes_le := by
    rw [h.weighed]
    exact_mod_cast h.total_le
  length_le := h.length_le
  ids_nodup := h.nodup.2
  ids_increasing := by
    have hsublist := (h.kept.sublist.map StoredMcpEvent.eventId).trans (appended_ids_sublist es)
    rw [h.issued] at hsublist
    obtain ⟨numbers, hnumbers, heq⟩ := List.sublist_map_iff.1 hsublist
    refine ⟨numbers.map (· + 1), ?_, by simp [heq]⟩
    rw [List.pairwise_map]
    exact (List.pairwise_lt_range.sublist hnumbers).imp fun hlt => Nat.succ_lt_succ hlt
  replayable _ hevent := h.getStream hevent

/-- **No list change is lost.** In every reachable state the retained events are accounted for and
the calls return. A replay after an event that was issued before a list change was stored sends a
list change: when the event is retained, the retained changes after it in the order in which they
were stored, and then a resync event; when it is not, the resync event alone. -/
theorem event_store_loses_no_change
    (h : Machine.Reaches (McpEventStore.step settings) Machine.anyStep EventStore.empty s es) :
    Bookkept settings s ∧
    (∀ streamId message, (s.storeEvent settings streamId message).isSome) ∧
    ∀ lastEventId, ∃ s' resyncEventId sent,
      s.replayEventsAfter settings lastEventId = some (s', resyncEventId, sent) ∧
      ReplaySends s lastEventId sent ∧
      ∀ pre eventId message post,
        es = pre ++ .stored eventId getStreamKey (some message) :: post →
        message.isListChanged = true →
        eventSizeBytes eventId getStreamKey (some message) ≤ settings.maxBytes →
        lastEventId ∈ issuedIds pre → ∃ m ∈ sent, m.message.isListChanged = true := by
  have hinv := eventStoreInv_of_reaches h
  refine ⟨hinv.bookkept, fun streamId message => ?_, fun lastEventId => ?_⟩
  · obtain ⟨s', hstore, -⟩ := storeEvent_spec settings hinv.weighed streamId message
    simp [hstore]
  obtain ⟨s', resyncEventId, sent, hreplay, hsends⟩ := hinv.replay lastEventId
  refine ⟨s', resyncEventId, sent, hreplay, hsends, ?_⟩
  intro pre eventId message post hes hchange hfits hissued
  have hresync : toolListChangedMessage.isListChanged = true :=
    (replayable_iff.1 isReplayable_toolListChanged).2 _ rfl
  by_cases hretained : lastEventId ∈ s.events.map StoredMcpEvent.eventId
  · obtain ⟨cursor, hcursor, rfl⟩ := List.mem_map.1 hretained
    obtain ⟨before, later, hsplit⟩ := List.append_of_mem hcursor
    have happended : (Event.stored eventId getStreamKey (some message)).appended settings =
        some (storedEvent eventId getStreamKey (some message)) := by
      refine if_pos ⟨replayable_iff.2 ⟨rfl, fun m hm => ?_⟩, hfits⟩
      exact Option.some.inj hm ▸ hchange
    have hlater := hinv.later_ne_nil hes happended hsplit hissued
    rcases hsends.known before cursor later hsplit rfl with ⟨-, -, hnil⟩ | ⟨id, rfl⟩
    · exact absurd hnil hlater
    · exact ⟨_, List.mem_append_right _ (List.mem_singleton_self _), hresync⟩
  · obtain ⟨id, rfl⟩ := hsends.unknown hretained
    exact ⟨_, List.mem_singleton_self _, hresync⟩

/-- Two events of at most a kilobyte together. -/
def smallSettings : Settings := ⟨2, 1024, "prefix".toList, by decide, by decide⟩

/-- A priming event, and three list changes after it, of which two are kept. -/
def changeRun : List Action :=
  [.store getStreamKey none, .store getStreamKey (some toolListChangedMessage),
    .store getStreamKey (some toolListChangedMessage),
    .store getStreamKey (some toolListChangedMessage)]

/-- The replay after the second event, which is not kept any more, sends a list change. -/
theorem evicted_cursor_resyncs : ∃ s es,
    Machine.Reaches (McpEventStore.step smallSettings) Machine.anyStep EventStore.empty s es ∧
      s.events.map StoredMcpEvent.eventId = ["prefix.3".toList, "prefix.4".toList] ∧
      ∃ s' resyncEventId sent, s.replayEventsAfter smallSettings "prefix.2".toList =
        some (s', resyncEventId, sent) ∧ ∃ m ∈ sent, m.message.isListChanged = true := by
  have hrun : (Machine.run (McpEventStore.step smallSettings) EventStore.empty changeRun).map
      (fun r => (r.1.events.map StoredMcpEvent.eventId, r.2)) =
      some (["prefix.3".toList, "prefix.4".toList],
        [.stored "prefix.1".toList getStreamKey none,
          .stored "prefix.2".toList getStreamKey (some toolListChangedMessage),
          .stored "prefix.3".toList getStreamKey (some toolListChangedMessage),
          .stored "prefix.4".toList getStreamKey (some toolListChangedMessage)]) := by
    decide +kernel
  obtain ⟨⟨s, es⟩, hs, hobs⟩ := Option.map_eq_some_iff.1 hrun
  obtain ⟨hevents, rfl⟩ := Prod.mk.inj hobs
  have hreach := Machine.run_reaches hs
  obtain ⟨-, -, hreplay⟩ := event_store_loses_no_change hreach
  obtain ⟨s', resyncEventId, sent, hsent, -, hchange⟩ := hreplay "prefix.2".toList
  refine ⟨s, _, hreach, hevents, s', resyncEventId, sent, hsent, ?_⟩
  exact hchange [_, _] _ _ [_] rfl (by decide) (by decide +kernel)
    (by simp [issuedIds, Event.issuedIds])

/-- It sends the resync event alone: the two changes that are retained are later than the cursor and
are not sent. -/
theorem evicted_cursor_skips_retained : ∃ s es s' resyncEventId sent,
    Machine.run (McpEventStore.step smallSettings) EventStore.empty changeRun = some (s, es) ∧
      issuedIds es = ["prefix.1".toList, "prefix.2".toList, "prefix.3".toList,
        "prefix.4".toList] ∧
      s.events.map (fun event => (event.eventId, event.message)) =
        [("prefix.3".toList, some toolListChangedMessage),
          ("prefix.4".toList, some toolListChangedMessage)] ∧
      s.replayEventsAfter smallSettings "prefix.2".toList = some (s', resyncEventId, sent) ∧
      sent = [⟨toolListChangedMessage, "prefix.5".toList⟩] := by
  have hrun : (Machine.run (McpEventStore.step smallSettings) EventStore.empty changeRun).map
      (fun r => (issuedIds r.2, r.1.events.map (fun event => (event.eventId, event.message)))) =
      some (["prefix.1".toList, "prefix.2".toList, "prefix.3".toList, "prefix.4".toList],
        [("prefix.3".toList, some toolListChangedMessage),
          ("prefix.4".toList, some toolListChangedMessage)]) := by
    decide +kernel
  have hreplay : (Machine.run (McpEventStore.step smallSettings) EventStore.empty changeRun).bind
      (fun r => (r.1.replayEventsAfter smallSettings "prefix.2".toList).map fun replay =>
        replay.2.2) = some [⟨toolListChangedMessage, "prefix.5".toList⟩] := by
    decide +kernel
  obtain ⟨⟨s, es⟩, hs, hobs⟩ := Option.map_eq_some_iff.1 hrun
  obtain ⟨hissued, hevents⟩ := Prod.mk.inj hobs
  rw [hs] at hreplay
  obtain ⟨⟨s', resyncEventId, sent⟩, hreplayed, hsent⟩ := Option.map_eq_some_iff.1 hreplay
  exact ⟨s, es, s', resyncEventId, sent, hs, hissued, hevents, hreplayed, hsent⟩

end Histories

end GoffyHub.McpEventStore
