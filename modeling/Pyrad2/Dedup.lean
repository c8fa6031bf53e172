import Mathlib.Data.Rat.Init
import Mathlib.Algebra.Order.Ring.Rat
import Pyrad2.Foundations.Recency
import Pyrad2.Packet.Reply

/-!
# Duplicate detection

The response cache, and the key under which a request is remembered.

A request is in flight while its handler runs; a reply that was sent is cached until it expires or
until more recently used replies push it out. Every method of the cache holds a lock, so a method is
one step here. Along with the cache the state keeps a log of what was recorded, replayed and pushed
out, and the contents of the cache after each step; the code reads neither.
-/

namespace Pyrad2

/-- Seconds, as exact rationals. -/
abbrev Time := ℚ

/-- A clock: a non-decreasing sequence of readings, and how many were taken. -/
structure Clock where
  reading : ℕ → Time
  monotone : Monotone reading
  taken : ℕ := 0

/-- The reading that comes next. -/
def Clock.now (c : Clock) : Time := c.reading c.taken

/-- `self._clock()` -/
def Clock.tick (c : Clock) : Clock := { c with taken := c.taken + 1 }

theorem Clock.now_le_now_tick (c : Clock) : c.now ≤ c.tick.now :=
  c.monotone (Nat.le_succ c.taken)

/-- A clock that stands still. -/
def Clock.still : Clock where
  reading := fun _ ↦ 0
  monotone := monotone_const

/-- `ResponseCache` -/
structure ResponseCache where
  ttl : Time
  maxEntries : ℕ
  /-- `_cached`: reply bytes and expiry time, least recently used first. -/
  cached : OrderedDict DedupKey (Bytes × Time) := ∅
  /-- `_in_flight` -/
  inFlight : Finset DedupKey := ∅
  ttl_pos : 0 < ttl
  maxEntries_pos : 0 < maxEntries

/-- `ResponseCache()` -/
def ResponseCache.default : ResponseCache where
  ttl := 30
  maxEntries := 4096
  ttl_pos := by decide
  maxEntries_pos := by decide

/-- What `lookup` returns. -/
inductive CacheEntry where
  | reply (raw : Bytes)
  | inFlight
  | none
  deriving DecidableEq, Repr

namespace ResponseCache

variable (c : ResponseCache)

/-- The part of `lookup` below the cached replies. -/
def inFlightEntry (key : DedupKey) : CacheEntry :=
  if key ∈ c.inFlight then .inFlight else .none

/-- `lookup(key)`; `now` is read only when a reply is cached. -/
def lookup (now : Time) (key : DedupKey) : CacheEntry × ResponseCache :=
  match c.cached.get? key with
  | some (raw, expiresAt) =>
    if now < expiresAt then (.reply raw, { c with cached := c.cached.moveToEnd key })
    else (c.inFlightEntry key, { c with cached := c.cached.erase key })
  | none => (c.inFlightEntry key, c)

/-- `mark_in_flight(key)` -/
def markInFlight (key : DedupKey) : ResponseCache := { c with inFlight := insert key c.inFlight }

/-- `drop_in_flight(key)` -/
def dropInFlight (key : DedupKey) : ResponseCache := { c with inFlight := c.inFlight.erase key }

/-- The replies that are left when `_evict_locked` has dropped expired ones from the front. -/
def live (now : Time) : OrderedDict DedupKey (Bytes × Time) :=
  c.cached.dropWhile fun e ↦ e.2.2 ≤ now

/-- How many replies `_evict_locked` then pops to get down to the cap. -/
def excess (now : Time) : ℕ := (c.live now).size - c.maxEntries

/-- `_evict_locked()` -/
def evictLocked (now : Time) : ResponseCache :=
  { c with cached := (c.live now).drop (c.excess now) }

/-- The keys `_evict_locked` pops to get down to the cap. -/
def evictedKeys (now : Time) : List DedupKey := (c.live now).keys.take (c.excess now)

/-- `record_reply(key, raw)` up to the eviction; `now` is the reading the expiry time starts from. -/
def insertReply (now : Time) (key : DedupKey) (raw : Bytes) : ResponseCache :=
  { c with
    inFlight := c.inFlight.erase key
    cached := (c.cached.set key (raw, now + c.ttl)).moveToEnd key }

/-- `record_reply(key, raw)`; the clock is read for the expiry time and again for the eviction. -/
def recordReply (now later : Time) (key : DedupKey) (raw : Bytes) : ResponseCache :=
  (c.insertReply now key raw).evictLocked later

end ResponseCache

/-! ### Keys -/

/-- `_DEDUPABLE_CODES` -/
def dedupableCodes : List ℕ :=
  [PacketType.accessRequest, PacketType.accountingRequest, PacketType.coaRequest,
    PacketType.disconnectRequest]

/-- `getattr(pkt, "token", None) or getattr(pkt, "authenticator", None)`, `none` when falsy. -/
def correlator (p : Packet) : Option Bytes :=
  let truthy (b : Option Bytes) : Option Bytes := b.filter (· ≠ [])
  (truthy p.token).or (truthy p.authenticator)

/-- `key_for(pkt, source)` -/
def keyFor (p : Packet) (source : Option Address) : Option DedupKey := do
  guard (p.code ∈ dedupableCodes)
  let (srcIp, srcPort) ← source.or p.source
  let requestAuthenticator ← correlator p
  let identifier ← p.id
  return { srcIp, srcPort, code := p.code, identifier, requestAuthenticator }

/-- An Access-Request. -/
def accessRequest : Packet :=
  { cls := .auth, code := PacketType.accessRequest, id := some 7,
    authenticator := some (List.replicate 16 1), source := some ("192.0.2.1", 40000) }

/-- The key of `accessRequest`. -/
def accessRequestKey : DedupKey :=
  { srcIp := "192.0.2.1", srcPort := 40000, code := PacketType.accessRequest, identifier := 7,
    requestAuthenticator := List.replicate 16 1 }

example : keyFor accessRequest none = some accessRequestKey := rfl

/-! ### The cache with its clock -/

/-- What happened to a reply. -/
inductive CacheEvent where
  | recorded (key : DedupKey) (raw : Bytes) (expiresAt : Time)
  | replayed (key : DedupKey)
  /-- Pushed out by the cap. -/
  | evicted (key : DedupKey)
  deriving DecidableEq

/-- What a lookup that returned `entry` adds to the log. -/
def CacheEntry.events (key : DedupKey) : CacheEntry → List CacheEvent
  | reply _ => [.replayed key]
  | _ => []

/-- The contents of a cache. -/
structure CacheContents where
  cached : OrderedDict DedupKey (Bytes × Time)
  inFlight : Finset DedupKey

/-- A cache, its clock, and what happened so far. -/
structure DedupState where
  cache : ResponseCache
  clock : Clock
  log : List CacheEvent := []
  history : List CacheContents := []

namespace DedupState

/-- The end of a locked section: the new cache, the events in it, and the contents it leaves. -/
def commit (s : DedupState) (cache : ResponseCache) (events : List CacheEvent) : DedupState :=
  { s with
    cache
    log := s.log ++ events
    history := s.history ++ [⟨cache.cached, cache.inFlight⟩] }

def lookup (s : DedupState) (key : DedupKey) : CacheEntry × DedupState :=
  let (entry, cache) := s.cache.lookup s.clock.now key
  (entry, { s.commit cache (entry.events key) with clock := s.clock.tick })

def markInFlight (s : DedupState) (key : DedupKey) : DedupState :=
  s.commit (s.cache.markInFlight key) []

def dropInFlight (s : DedupState) (key : DedupKey) : DedupState :=
  s.commit (s.cache.dropInFlight key) []

def recordReply (s : DedupState) (key : DedupKey) (raw : Bytes) : DedupState :=
  let now := s.clock.now
  let later := s.clock.tick.now
  let evicted := (s.cache.insertReply now key raw).evictedKeys later
  { s.commit (s.cache.recordReply now later key raw)
      (.recorded key raw (now + s.cache.ttl) :: evicted.map .evicted) with
    clock := s.clock.tick.tick }

end DedupState

end Pyrad2
