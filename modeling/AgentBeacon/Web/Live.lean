import AgentBeacon.Web.History

/-!
# `Web.Live` — rows of the event stream on their way into the client's caches

A row of the stream is classified as it is delivered and then waits: in the batcher, until a frame or a timer flushes
it; behind a list that holds its head, until the head is released; or with the live events, until the session's first
read is stored. A session has two caches, its window and its whole history, and a row is written to each that is there.
-/

namespace AgentBeacon.Web

/-! ## The batcher -/

/-- `SSEBatcher`, with what its scheduler has asked for: an animation frame, and a timer for when there are none. -/
structure SSEBatcher where
  seen : Option SessionId → Option (List String)
  /-- In the order the sessions were first buffered. -/
  pending : List (SessionId × List Event)
  pendingCount : Nat
  raf : Bool
  timer : Bool

/-- A call of `appendNew`. -/
abbrev AppendCall := SessionId × List Event

namespace SSEBatcher

def fresh : SSEBatcher where
  seen := fun _ => none
  pending := []
  pendingCount := 0
  raf := false
  timer := false

/-- `bucket.push` on the session's bucket, which is made if there is none. -/
def push (key : SessionId) (event : Event) : List (SessionId × List Event) → List (SessionId × List Event)
  | [] => [(key, [event])]
  | (key', bucket) :: rest =>
      if key' = key then (key', bucket ++ [event]) :: rest else (key', bucket) :: push key event rest

/-- The ids a session's events are compared with: those seen, or at first those of the cache. -/
def idsFor (batcher : SSEBatcher) (getExisting : SessionId → Option (List Event)) (key : Option SessionId) :
    List String :=
  match batcher.seen key with
  | some ids => ids
  | none =>
      match key with
      | none => []
      | some session => ((getExisting session).getD []).map Event.id

/-- `scheduler.request`. -/
def request (batcher : SSEBatcher) : SSEBatcher := { batcher with raf := true, timer := true }

/-- `scheduler.cancel`. -/
def cancel (batcher : SSEBatcher) : SSEBatcher := { batcher with raf := false, timer := false }

/-- `flush`, with its calls of `appendNew`. -/
def flush (batcher : SSEBatcher) : SSEBatcher × List AppendCall :=
  let batcher := batcher.cancel
  if batcher.pendingCount = 0 then (batcher, [])
  else ({ batcher with pending := [], pendingCount := 0 }, batcher.pending)

/-- `enqueue`: is the event new? -/
def enqueue (sizeCap : Nat) (getExisting : SessionId → Option (List Event)) (batcher : SSEBatcher) (event : Event) :
    Bool × SSEBatcher × List AppendCall :=
  let key := event.row.sessionId
  let ids := batcher.idsFor getExisting key
  let seeded := { batcher with seen := Function.update batcher.seen key (some ids) }
  if ids.contains event.id then (false, seeded, [])
  else
    let known := { batcher with seen := Function.update batcher.seen key (some (ids ++ [event.id])) }
    match key with
    | none => (true, known, [])
    | some session =>
        let buffered := { known with
          pending := push session event known.pending, pendingCount := known.pendingCount + 1 }
        if buffered.pendingCount ≥ sizeCap then (true, buffered.flush)
        else (true, buffered.request, [])

/-- The animation frame, if one is asked for. -/
def frame (batcher : SSEBatcher) : SSEBatcher × List AppendCall :=
  if batcher.raf then { batcher with raf := false }.flush else (batcher, [])

/-- The timer, if it is set. -/
def timeout (batcher : SSEBatcher) : SSEBatcher × List AppendCall :=
  if batcher.timer then { batcher with timer := false }.flush else (batcher, [])

/-- `dispose`. -/
def dispose (batcher : SSEBatcher) : SSEBatcher × List AppendCall :=
  let (flushed, calls) := batcher.flush
  ({ flushed.cancel with seen := fun _ => none }, calls)

end SSEBatcher

/-! ## A session's caches -/

/-- `session-events` and `session-events-full`. -/
inductive CacheKey where
  | window | full
  deriving DecidableEq, Repr

/-- A write to the end of a history, as it is deferred. -/
inductive TailWrite where
  /-- `appendLiveRows`. -/
  | live (rows : List Event)
  /-- A merge of rows that were read. `stillWanted` is asked at the moment of the write. -/
  | merge (key : CacheKey) (rows : List Event) (stillWanted : Nat → Bool)

/-- What the client has of one session: its queries, of which one is `none` if there is no query and `some none`
while its first read is out; the writes deferred while the list holds its head; and the live events held. -/
structure SessionCache where
  query : CacheKey → Option (Option (List Event))
  tailHeld : Bool
  deferred : List TailWrite
  heldLive : Option (List Event)
  releases : Nat

def holdCap : Nat := 500

namespace SessionCache

def getQueryData (cache : SessionCache) (key : CacheKey) : Option (List Event) := (cache.query key).join

def setQueryData (cache : SessionCache) (key : CacheKey) (rows : List Event) : SessionCache :=
  { cache with query := Function.update cache.query key (some (some rows)) }

/-- `cachedIds`. -/
def cachedIds (cache : SessionCache) (key : CacheKey) : List String :=
  ((cache.getQueryData key).getD []).map Event.id

/-- Is the query's first read out? -/
def building (cache : SessionCache) (key : CacheKey) : Bool :=
  (cache.query key).isSome && (cache.getQueryData key).isNone

/-- `heldLiveEvents`. -/
def heldLiveEvents (cache : SessionCache) : List Event := cache.heldLive.getD []

/-- `holdLiveEvents`: too many are released rather than held. -/
def holdLiveEvents (events : List Event) (cache : SessionCache) : SessionCache :=
  let next := cache.heldLiveEvents ++ events
  if next.length > holdCap then { cache with heldLive := none, releases := cache.releases + 1 }
  else { cache with heldLive := some next }

/-- `append` in `appendLiveRows`: the rows that the cache does not hold. -/
def appendTo (events : List Event) (key : CacheKey) (cache : SessionCache) : SessionCache :=
  match cache.getQueryData key with
  | some old => cache.setQueryData key (old ++ events.filter fun e => !(old.map Event.id).contains e.id)
  | none => cache

/-- `appendLiveRows`. -/
def appendLiveRows (events : List Event) (cache : SessionCache) : SessionCache :=
  let hasWindow := (cache.getQueryData .window).isSome
  let hasFull := (cache.getQueryData .full).isSome
  let held :=
    if (!hasWindow && !hasFull) || cache.building .window || cache.building .full then cache.holdLiveEvents events
    else cache
  (held.appendTo events .window).appendTo events .full

/-- The `appendNew` that the batcher is given. -/
def appendNew (events : List Event) (cache : SessionCache) : SessionCache :=
  if cache.tailHeld then { cache with deferred := cache.deferred ++ [.live events] }
  else cache.appendLiveRows events

/-- A write, at the moment `now`. An entry that is gone is not written back. -/
def write (now : Nat) (cache : SessionCache) : TailWrite → SessionCache
  | .live rows => cache.appendLiveRows rows
  | .merge key rows stillWanted =>
      if !stillWanted now then cache
      else if (cache.query key).isNone then cache
      else cache.setQueryData key (mergeAnchored (cache.getQueryData key) rows)

/-- `commitRows`. -/
def commitRows (now : Nat) (key : CacheKey) (rows : List Event) (stillWanted : Nat → Bool) (cache : SessionCache) :
    SessionCache :=
  if cache.tailHeld then { cache with deferred := cache.deferred ++ [.merge key rows stillWanted] }
  else cache.write now (.merge key rows stillWanted)

/-- `holdTail`. -/
def holdTail (cache : SessionCache) : SessionCache := { cache with tailHeld := true }

/-- `releaseTail`: what was deferred runs in the order it was given. -/
def releaseTail (now : Nat) (cache : SessionCache) : SessionCache :=
  if !cache.tailHeld then cache
  else cache.deferred.foldl (write now) { cache with tailHeld := false, deferred := [] }

/-- The prepending write of `fetchOlderPage`, which is not deferred. -/
def prepend (rows : List Event) (cache : SessionCache) : SessionCache :=
  cache.setQueryData .window (mergeAnchored (cache.getQueryData .window) rows)

end SessionCache

/-! ## Storing a read -/

/-- `trailing` of `appendHeld`, from an index on. -/
def trailingFrom (visible : String → Bool) (anchor : Option Nat) (skip : String → Bool) :
    Nat → List String → List Event → List Event
  | _, _, [] => []
  | index, seen, event :: holds =>
      let older := match anchor with
        | some anchor => decide (index < anchor)
        | none => skip event.id
      if visible event.id || seen.contains event.id || older then
        trailingFrom visible anchor skip (index + 1) seen holds
      else event :: trailingFrom visible anchor skip (index + 1) (seen ++ [event.id]) holds

/-- The index of the last row that is visible. -/
def lastVisible (visible : String → Bool) : List Event → Option Nat
  | [] => none
  | event :: holds =>
      match lastVisible visible holds with
      | some index => some (index + 1)
      | none => if visible event.id then some 0 else none

/-- `appendHeld`: the held rows that a read does not account for come behind it. -/
def appendHeld (events holds : List Event) (incorporated heldBefore : List String) : List Event :=
  let visible := fun id => (events.map Event.id).contains id || incorporated.contains id
  let anchor := lastVisible visible holds
  let skip := fun id => !events.isEmpty && heldBefore.contains id
  events ++ trailingFrom visible anchor skip 0 [] holds

namespace SessionCache

/-- `reconcileHistory`: a read is merged as it is stored, or when the head is released. -/
def reconcileHistory (key : CacheKey) (rows : List Event) (cache : SessionCache) : SessionCache :=
  if (cache.getQueryData key).isSome && cache.tailHeld then
    { cache with deferred := cache.deferred ++ [.merge key rows fun _ => true] }
  else cache.setQueryData key (mergeAnchored (cache.getQueryData key) rows)

/-- The end of a query's read: what it has read, with the live events held, is stored. -/
def store (key : CacheKey) (fetched : List Event) (heldBefore : List String) (cache : SessionCache) : SessionCache :=
  cache.reconcileHistory key (appendHeld fetched cache.heldLiveEvents (cache.cachedIds key) heldBefore)

end SessionCache

/-! ## The client -/

structure Client where
  batcher : SSEBatcher
  sessions : SessionId → SessionCache
  /-- Counts the client's steps. -/
  now : Nat

/-- What the client does. -/
inductive ClientStep where
  /-- The stream delivers a row. -/
  | deliver (event : Event)
  | frame
  | timeout
  /-- The stream is lost, or given up for another attempt. -/
  | flush
  /-- The view is left. -/
  | dispose
  | hold (session : SessionId)
  | release (session : SessionId)
  | releaseAll
  | commit (session : SessionId) (key : CacheKey) (rows : List Event) (stillWanted : Nat → Bool)
  | store (session : SessionId) (key : CacheKey) (fetched : List Event) (heldBefore : List String)
  | prepend (session : SessionId) (rows : List Event)

namespace Client

/-- The session's cache is changed. -/
def modify (session : SessionId) (f : SessionCache → SessionCache) (client : Client) : Client :=
  { client with sessions := Function.update client.sessions session (f (client.sessions session)) }

/-- What the batcher leaves, after its calls of `appendNew`. -/
def batched (client : Client) : SSEBatcher × List AppendCall → Client
  | (batcher, calls) =>
      calls.foldl (fun client call => client.modify call.1 (·.appendNew call.2)) { client with batcher }

/-- `getExisting` as the batcher is given it. -/
def getExisting (client : Client) (session : SessionId) : Option (List Event) :=
  (client.sessions session).getQueryData .window

/-- The constructor's default. -/
def sizeCap : Nat := 500

def perform (client : Client) : ClientStep → Client
  | .deliver event => client.batched (client.batcher.enqueue sizeCap client.getExisting event).2
  | .frame => client.batched client.batcher.frame
  | .timeout => client.batched client.batcher.timeout
  | .flush => client.batched client.batcher.flush
  | .dispose => client.batched client.batcher.dispose
  | .hold session => client.modify session SessionCache.holdTail
  | .release session => client.modify session (SessionCache.releaseTail client.now)
  | .releaseAll => { client with sessions := fun session => (client.sessions session).releaseTail client.now }
  | .commit session key rows stillWanted =>
      client.modify session (SessionCache.commitRows client.now key rows stillWanted)
  | .store session key fetched heldBefore => client.modify session (SessionCache.store key fetched heldBefore)
  | .prepend session rows => client.modify session (SessionCache.prepend rows)

/-- One step of the client. -/
def step (client : Client) (act : ClientStep) : Client :=
  { client.perform act with now := client.now + 1 }

end Client

end AgentBeacon.Web
