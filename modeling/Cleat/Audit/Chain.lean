import Cleat.Encoding.Hex
import Cleat.Encoding.Utf8
import Cleat.Session
import Mathlib.Data.List.Sort

/-!
# The audit log's chain

Every tenant has a chain of audit rows. A row holds the hash of its own content and of the row
before it. One head row for each tenant records the newest sequence number and hash, and the
floor: up to where retention has removed rows, and the hash of the last row removed. The head
row is the tenant's lock, so an append and a sweep are each one atomic step on the tables.

The hash function, the printed forms of ids and instants, and what JSON documents become in
canonical form and in the database are parameters.
-/
namespace Cleat.Audit

open Encoding

variable (store : AuditStore) (tenant : UUID)

/-- The bytes of a Go string or of a text column. -/
abbrev Text := List UInt8

/-- A 128-bit id. -/
abbrev UUID := Nat

/-- The id that stands for none. -/
def nilUUID : UUID := 0

def chainHashLen : Nat := 32

/-- The raw bytes of a hash. -/
abbrev Digest := { bytes : List UInt8 // bytes.length = chainHashLen }

/-- What the log takes from its surroundings. `storeJSON` is what a JSON column holds after a
document was inserted; it and `canonicalJSON` refuse what is not JSON. -/
structure Platform where
  sha256 : Text → Digest
  uuidText : UUID → Text
  timestampText : Int → Text
  canonicalJSON : Text → Option Text
  storeJSON : Text → Option Text

section Texts

/-- A text in which every run of invalid bytes has become one replacement character, as by
`strings.ToValidUTF8`. The first bytes may belong to a sequence that has been accepted, or the
run at hand may have been replaced already. -/
def replaceInvalidRuns : Bool → Nat → Text → Text
  | _, _, [] => []
  | _, accepted + 1, byte :: rest => byte :: replaceInvalidRuns false accepted rest
  | replaced, 0, byte :: rest =>
    match followers byte rest with
    | some more => byte :: replaceInvalidRuns false more rest
    | none => (if replaced then [] else replacement) ++ replaceInvalidRuns true 0 rest

/-- Runs of invalid UTF-8 and NUL bytes become the replacement character. -/
def sanitizeText (text : Text) : Text :=
  (replaceInvalidRuns false 0 text).flatMap fun byte => if byte = 0 then replacement else [byte]

/-- The characters of a text, of which the first bytes still belong to the character at
hand. -/
def characters : Nat → Text → Text → List Text
  | _, [], current => if current = [] then [] else [current]
  | more + 1, byte :: rest, current => characters more rest (current ++ [byte])
  | 0, byte :: rest, current =>
    let following := characters ((followers byte rest).getD 0) rest [byte]
    if current = [] then following else current :: following

/-- The UTF-16 code units of a character. -/
def units (character : Text) : Nat := if character.length = 4 then 2 else 1

def truncationMarker : Text := bytesOf "...[truncated]"

/-- The characters that still fit, with the numbers of characters and units so far. -/
def keepFitting (keepRunes keepUnits : Nat) : Nat → Nat → List Text → Text
  | _, _, [] => []
  | runes, used, character :: rest =>
    if runes + 1 > keepRunes ∨ used + units character > keepUnits then []
    else character ++ keepFitting keepRunes keepUnits (runes + 1) (used + units character) rest

/-- A text cut to a number of characters and of UTF-16 units, with a marker if it was cut. -/
def fitText (text : Text) (maxRunes maxUnits : Nat) : Text :=
  let runes := characters 0 text []
  let used := runes.foldl (fun used character => used + units character) 0
  if runes.length ≤ maxRunes ∧ used ≤ maxUnits then text
  else
    keepFitting (maxRunes - truncationMarker.length) (maxUnits - truncationMarker.length) 0 0
      runes ++ truncationMarker

def maxMethodRunes : Nat := 255
def maxMethodUnits : Nat := 255
def maxPathRunes : Nat := 700
def maxPathUnits : Nat := 800
def maxFreeTextRunes : Nat := 4096
def maxFreeTextUnits : Nat := 8192

end Texts

section Hashing

/-- The values that a row's hash covers. The timestamp is in microseconds. -/
structure ChainRecord where
  tenantID : UUID
  seq : Nat
  id : UUID
  timestamp : Int
  method : Text
  path : Text
  statusCode : Option Int
  userID : Option Text
  ipAddress : Option Text
  userAgent : Option Text
  durationMs : Option Int
  metadata : Option Text

/-- A number in groups of seven bits, as `binary.AppendUvarint` writes a 64-bit one. -/
def uvarint : Nat → Nat → Text
  | 0, number => [UInt8.ofNat number]
  | more + 1, number =>
    if number < 128 then [UInt8.ofNat number]
    else UInt8.ofNat (number % 128 + 128) :: uvarint more (number / 128)

/-- One field: a presence byte and, if there is a value, its length and its bytes. -/
def appendField (buffer : Text) : Option Text → Text
  | none => buffer ++ [0]
  | some value => buffer ++ [1] ++ uvarint 9 value.length ++ value

def formatInt (number : Int) : Text := bytesOf (toString number)

def chainDomain : Text := bytesOf "cleat-audit-chain-v1" ++ [0]

inductive HashError where
  | metadataNotJSON
  | invalidUTF8
deriving DecidableEq

variable (platform : Platform)

/-- The bytes that are hashed, with the metadata in canonical form. -/
def chainBytes (prev : Digest) (r : ChainRecord) (metadata : Option Text) : Text :=
  [some (platform.uuidText r.tenantID), some (formatInt r.seq), some (platform.uuidText r.id),
    some (platform.timestampText r.timestamp), some r.method, some r.path,
    r.statusCode.map formatInt, r.userID, r.ipAddress, r.userAgent, r.durationMs.map formatInt,
    metadata].foldl appendField (chainDomain ++ prev.val)

/-- A row's hash from the hash before it. -/
def chainHash (prev : Digest) (r : ChainRecord) : Except HashError Digest :=
  match r.metadata with
  | none => hashed none
  | some document =>
    match platform.canonicalJSON document with
    | none => .error .metadataNotJSON
    | some canonical => hashed (some canonical)
where
  hashed (metadata : Option Text) : Except HashError Digest :=
    if validUTF8 r.method && validUTF8 r.path then
      .ok (platform.sha256 (chainBytes platform prev r metadata))
    else .error .invalidUTF8

/-- The hash before a tenant's first row. -/
def zeroHash : Digest := ⟨List.replicate chainHashLen 0, rfl⟩

def zeroHashHex : Text := encodeHex zeroHash.val

/-- The hash that a text column holds. -/
def decodeDigest (text : Text) : Option Digest :=
  match decodeHex text with
  | none => none
  | some bytes => if sized : bytes.length = chainHashLen then some ⟨bytes, sized⟩ else none

@[simp] theorem decodeDigest_encodeHex (digest : Digest) :
    decodeDigest (encodeHex digest.val) = some digest := by
  rw [decodeDigest, decodeHex_encodeHex]
  exact dif_pos digest.property

end Hashing

section Tables

/-- A row of `audit_events`. A row from before the chain has no sequence number. -/
structure AuditRow where
  id : UUID
  tenantID : UUID
  timestamp : Int
  method : Text
  path : Text
  statusCode : Option Int
  userID : Option Text
  ipAddress : Option Text
  userAgent : Option Text
  durationMs : Option Int
  metadata : Option Text
  seq : Option Nat
  prevHash : Option Text
  rowHash : Option Text

/-- The values of a row that its hash covers, as a verifier reads them. -/
def AuditRow.record (row : AuditRow) (tenant : UUID) (seq : Nat) : ChainRecord where
  tenantID := tenant
  seq := seq
  id := row.id
  timestamp := row.timestamp
  method := row.method
  path := row.path
  statusCode := row.statusCode
  userID := row.userID
  ipAddress := row.ipAddress
  userAgent := row.userAgent
  durationMs := row.durationMs
  metadata := row.metadata

/-- A row of `audit_chain_heads`. -/
structure ChainHead where
  seq : Nat
  hash : Text
  floorSeq : Nat := 0
  floorHash : Text := zeroHashHex
  floorTS : Int := 0
deriving DecidableEq

/-- The two tables. -/
structure AuditStore where
  events : List AuditRow
  heads : UUID → Option ChainHead

/-- A row of a tenant's chain. -/
def AuditRow.chainedFor (row : AuditRow) (tenant : UUID) : Bool :=
  row.tenantID = tenant && row.seq.isSome

/-- A tenant's chained rows in the order of their sequence numbers. -/
def AuditStore.chained : List AuditRow :=
  (store.events.filter (·.chainedFor tenant)).insertionSort fun row other =>
    row.seq.getD 0 ≤ other.seq.getD 0

/-- Creation of the tenant's head, if it is absent. -/
def AuditStore.ensureHead : AuditStore :=
  if (store.heads tenant).isSome then store
  else
    { store with
      heads := Function.update store.heads tenant (some { seq := 0, hash := zeroHashHex }) }

/-- An insert respects the primary key and the unique index on tenant and sequence number. -/
def AuditStore.accepts (row : AuditRow) : Bool :=
  store.events.all fun other =>
    other.id ≠ row.id && !(other.tenantID = row.tenantID && row.seq.isSome && other.seq = row.seq)

end Tables

section Appending

/-- What the middleware hands to the store. The instant is in nanoseconds; none stands for the
time of the append. -/
structure ChainEvent where
  tenantID : UUID
  userID : Text := []
  method : Text := []
  path : Text := []
  statusCode : Int := 0
  ipAddress : Text := []
  userAgent : Text := []
  durationMs : Int := 0
  metadata : Text := []
  id : UUID
  ts : Option Int := none
  retry : Bool := false
deriving DecidableEq

inductive AppendError where
  | headMissing
  | headHashInvalid
  | alreadyRecorded
  | insertRefused
  | unhashable (reason : HashError)
  | headMoved
  | database (reason : String)
deriving DecidableEq

/-- The texts of an event as they are stored and hashed. -/
def ChainEvent.fitted (e : ChainEvent) : ChainEvent :=
  { e with
    method := fitText (sanitizeText e.method) maxMethodRunes maxMethodUnits
    path := fitText (sanitizeText e.path) maxPathRunes maxPathUnits
    userID := fitText (sanitizeText e.userID) maxFreeTextRunes maxFreeTextUnits
    ipAddress := fitText (sanitizeText e.ipAddress) maxFreeTextRunes maxFreeTextUnits
    userAgent := fitText (sanitizeText e.userAgent) maxFreeTextRunes maxFreeTextUnits }

/-- An instant in microseconds, cut and not rounded. -/
def truncateMicros (nanoseconds : Int) : Int := nanoseconds / 1000

/-- The row of an event at a sequence number, before its hash is known. -/
def ChainEvent.row (e : ChainEvent) (now : Int) (fresh : UUID) (seq : Nat) (prev : Digest)
    (stored : Option Text) : AuditRow where
  id := if e.id = nilUUID then fresh else e.id
  tenantID := e.tenantID
  timestamp := truncateMicros (e.ts.getD now)
  method := e.method
  path := e.path
  statusCode := some e.statusCode
  userID := some e.userID
  ipAddress := some e.ipAddress
  userAgent := some e.userAgent
  durationMs := some e.durationMs
  metadata := stored
  seq := some seq
  prevHash := some (toLower (encodeHex prev.val))
  rowHash := none

/-- The document to store. -/
def ChainEvent.document (e : ChainEvent) : Text :=
  if e.metadata = [] then bytesOf "\x7b\x7d" else e.metadata

/-- An earlier attempt of a retried event has been committed. -/
def ChainEvent.recordedIn (e : ChainEvent) (store : AuditStore) : Bool :=
  e.retry && e.id ≠ nilUUID &&
    store.events.any fun row => row.tenantID = e.tenantID && row.id = e.id

/-- The row at `seq + 1` with its hash, and the head moved to it. -/
def AuditStore.extend (head : ChainHead) (row : AuditRow) (rowHash : Text) :
    Except AppendError AuditStore :=
  let events := (store.events ++ [row]).map fun other =>
    if other.id = row.id then { other with rowHash := some rowHash } else other
  match store.heads tenant with
  | none => .error .headMoved
  | some current =>
    if current.seq = head.seq then
      .ok { events
            heads := Function.update store.heads tenant
              (some { current with seq := head.seq + 1, hash := rowHash }) }
    else .error .headMoved

/-- One append: the whole transaction under the head's lock, by a clock and with a fresh id. -/
def appendOnce (platform : Platform) (store : AuditStore) (e : ChainEvent) (now : Int)
    (fresh : UUID) : Except AppendError AuditStore :=
  match store.heads e.tenantID with
  | none => .error .headMissing
  | some head =>
    match decodeDigest (trimSpace head.hash) with
    | none => .error .headHashInvalid
    | some prev =>
      if e.recordedIn store then .error .alreadyRecorded
      else
        match platform.storeJSON e.document with
        | none => .error .insertRefused
        | some stored =>
          -- the metadata is hashed as it is read back after the insert
          let row := e.row now fresh (head.seq + 1) prev (some stored)
          if store.accepts row then
            match chainHash platform prev (row.record e.tenantID (head.seq + 1)) with
            | .error reason => .error (.unhashable reason)
            | .ok sum => store.extend e.tenantID head row (encodeHex sum.val)
          else .error .insertRefused

end Appending

section Retention

/-- The rows that one tenant loses at most in one sweep. -/
def retentionBatch : Nat := 5000

/-- The first row past a floor that has not expired. -/
def AuditStore.firstLive (floorSeq : Nat) (cutoff : Int) : Option Nat :=
  ((store.chained tenant).find? fun row =>
    row.seq.getD 0 > floorSeq && row.timestamp ≥ cutoff).bind (·.seq)

/-- The highest sequence number up to which every row past the floor has expired, within one
batch. -/
def expiredPrefixEnd (firstLive : Option Nat) (floorSeq headSeq : Nat) : Nat :=
  let upTo := match firstLive with
    | some live => live - 1
    | none => headSeq
  if upTo > floorSeq + retentionBatch then floorSeq + retentionBatch else upTo

/-- The chained row at a sequence number. -/
def AuditStore.rowAt (seq : Nat) : Option AuditRow :=
  (store.chained tenant).find? fun row => row.seq.getD 0 = seq

/-- A row that a sweep up to a sequence number removes. -/
def AuditRow.sweptUpTo (row : AuditRow) (tenant : UUID) (upTo : Nat) : Bool :=
  row.chainedFor tenant && row.seq.getD 0 ≤ upTo

/-- The tables without the rows up to a new floor. -/
def AuditStore.withFloor (upTo : Nat) (head : ChainHead) : AuditStore where
  events := store.events.filter fun row => !row.sweptUpTo tenant upTo
  heads := Function.update store.heads tenant (some head)

/-- The transaction of a sweep. It is refused without a head; none stands for a sweep that
found nothing to remove or a chain that it leaves for the verifier to report. -/
def sweep (cutoff : Int) : Except String (Option (AuditStore × Nat)) :=
  match store.heads tenant with
  | none => .error "lock head"
  | some head =>
    let live := store.firstLive tenant head.floorSeq cutoff
    let upTo := expiredPrefixEnd live head.floorSeq head.seq
    if upTo ≤ head.floorSeq then .ok none
    else
      match store.rowAt tenant upTo with
      | none => .ok none
      | some row =>
        match row.rowHash with
        | none => .error "read the new floor"
        | some rowHash =>
          let floorHash := trimSpace rowHash
          if upTo = head.seq ∧ floorHash ≠ trimSpace head.hash then .ok none
          else
            let swept := store.events.countP (·.sweptUpTo tenant upTo)
            if swept ≠ upTo - head.floorSeq then .ok none
            else
              .ok (some
                (store.withFloor tenant upTo
                  { head with floorSeq := upTo, floorHash, floorTS := row.timestamp }, swept))

/-- A row from before the chain that has expired. -/
def AuditRow.expiredUnchained (row : AuditRow) (tenant : UUID) (cutoff : Int) : Bool :=
  row.tenantID = tenant && row.seq.isNone && row.timestamp < cutoff

def AuditStore.retainUnchained (cutoff : Int) : AuditStore :=
  { store with events := store.events.filter fun row => !row.expiredUnchained tenant cutoff }

end Retention

end Cleat.Audit
