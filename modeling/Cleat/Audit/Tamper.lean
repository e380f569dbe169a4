import Cleat.Audit.Runs
import Mathlib

/-!
# What a verified head says about the rows below it

Two states of a tenant's tables that both verify and have the same head and floor hold the same
rows above the floor, on every value that a row's hash covers. Hashes are finite, so no hash
function is injective on all texts; what is assumed is that no two of the texts that were hashed
for the rows of the two states collide. The texts of ids and of instants are assumed to determine
them, and documents are compared in their canonical form. A text's length is a Go `int`.
-/
namespace Cleat.Audit

open Encoding Durable Durable.Program List AuditRow

section Encodings

theorem formatInt_injective : Function.Injective formatInt :=
  fun _ _ same => Int.repr_injective (bytesOf_injective same)

variable {rest rest' text : Text}

/-- A number is read back from the groups that it was written in, whatever follows them. -/
theorem uvarint_append_inj {more number other : Nat} (small : number < 128 ^ (more + 1))
    (small' : other < 128 ^ (more + 1))
    (same : uvarint more number ++ rest = uvarint more other ++ rest') :
    number = other ∧ rest = rest' := by
  induction more generalizing number other with
  | zero =>
    simp only [uvarint, cons_append, nil_append, cons.injEq] at same
    have low := congrArg UInt8.toNat same.1
    simp only [UInt8.toNat_ofNat'] at low
    exact ⟨by omega, same.2⟩
  | succ more ih =>
    have bound : number / 128 < 128 ^ (more + 1) := Nat.div_lt_of_lt_mul (by omega)
    have bound' : other / 128 < 128 ^ (more + 1) := Nat.div_lt_of_lt_mul (by omega)
    unfold uvarint at same
    -- the first byte tells a last group from one that is followed by more
    by_cases short : number < 128 <;> by_cases short' : other < 128
    all_goals
      simp only [short, short', if_true, if_false, cons_append, nil_append,
        cons.injEq] at same
      have low := congrArg UInt8.toNat same.1
      simp only [UInt8.toNat_ofNat'] at low
    · exact ⟨by omega, same.2⟩
    · omega
    · omega
    · obtain ⟨high, rest⟩ := ih bound bound' same.2
      exact ⟨by omega, rest⟩

/-- The bytes of one field. -/
def fieldBytes (field : Option Text) : Text := appendField [] field

theorem appendField_eq (buffer : Text) (field : Option Text) :
    appendField buffer field = buffer ++ fieldBytes field := by
  cases field <;> simp [fieldBytes, appendField]

theorem foldl_appendField (buffer : Text) (fields : List (Option Text)) :
    fields.foldl appendField buffer = buffer ++ fields.flatMap fieldBytes := by
  induction fields generalizing buffer with
  | nil => simp
  | cons field rest ih => simp [ih, appendField_eq]

theorem length_le_fieldBytes (value : Text) : value.length ≤ (fieldBytes (some value)).length := by
  simp [fieldBytes, appendField]
  omega

/-- A field is read back from its bytes, whatever follows them. -/
theorem fieldBytes_append_inj {field other : Option Text}
    (sized : (fieldBytes field).length < 2 ^ 63) (sized' : (fieldBytes other).length < 2 ^ 63)
    (same : fieldBytes field ++ rest = fieldBytes other ++ rest') :
    field = other ∧ rest = rest' := by
  cases field with
  | none =>
    cases other with
    | none => exact ⟨rfl, by simpa [fieldBytes, appendField] using same⟩
    | some _ => simp [fieldBytes, appendField] at same
  | some value =>
    cases other with
    | none => simp [fieldBytes, appendField] at same
    | some value' =>
      have small := (length_le_fieldBytes value).trans_lt sized
      have small' := (length_le_fieldBytes value').trans_lt sized'
      simp only [fieldBytes, appendField, nil_append, append_assoc,
        cons_append, cons.injEq, true_and] at same
      obtain ⟨length, tail⟩ := uvarint_append_inj (by omega) (by omega) same
      obtain ⟨rfl, rest⟩ := append_inj tail length
      exact ⟨rfl, rest⟩

/-- As many fields are read back from their bytes. -/
theorem fields_inj {fields others : List (Option Text)} (count : fields.length = others.length)
    (same : fields.flatMap fieldBytes = others.flatMap fieldBytes)
    (sized : (fields.flatMap fieldBytes).length < 2 ^ 63) : fields = others := by
  induction fields generalizing others with
  | nil => exact (length_eq_zero_iff.mp count.symm).symm
  | cons field rest ih =>
    cases others with
    | nil => cases count
    | cons other rest' =>
      have sized' := same ▸ sized
      simp only [flatMap_cons, length_append] at same sized sized'
      obtain ⟨rfl, tail⟩ := fieldBytes_append_inj (by omega) (by omega) same
      rw [ih (Nat.succ.inj count) tail (by omega)]

/-- A digit means the same in both cases. -/
theorem hexValue_lower (byte : UInt8) : hexValue (lower byte) = hexValue byte := by
  have all : ∀ number : Fin 256, hexValue (lower (UInt8.ofNat number)) =
      hexValue (UInt8.ofNat number) := by decide +kernel
  simpa using all ⟨byte.toNat, byte.toNat_lt⟩

theorem decodeHex_toLower : ∀ text : Text, decodeHex (toLower text) = decodeHex text
  | [] => rfl
  | [_] => rfl
  | high :: low :: rest => by
      have tail := decodeHex_toLower rest
      simp only [toLower, map_cons, decodeHex, hexValue_lower] at tail ⊢
      rw [tail]

theorem decodeDigest_toLower (text : Text) : decodeDigest (toLower text) = decodeDigest text := by
  unfold decodeDigest
  rw [decodeHex_toLower]

/-- A column that holds a hash in any case is decoded to it. -/
theorem decodeDigest_of_equalFold {digest : Digest}
    (folded : equalFold (encodeHex digest.val) text = true) :
    toLower text = encodeHex digest.val ∧ decodeDigest text = some digest := by
  have same : encodeHex digest.val = toLower text := by simpa [equalFold] using folded
  refine ⟨same.symm, ?_⟩
  rw [← decodeDigest_toLower, ← same, decodeDigest_encodeHex]

theorem decodeDigest_congr {other : Text} (folded : equalFold text other = true) :
    decodeDigest text = decodeDigest other := by
  have same : toLower text = toLower other := by simpa [equalFold] using folded
  rw [← decodeDigest_toLower, same, decodeDigest_toLower]

theorem encodeHex_injective : Function.Injective encodeHex := by
  intro bytes other same
  have decoded := congrArg decodeHex same
  rwa [decodeHex_encodeHex, decodeHex_encodeHex, Option.some.injEq] at decoded

end Encodings

section Rows

variable (platform : Platform) (tenant : UUID)

/-- What a row's hash covers: its values, with the document in canonical form. -/
def AuditRow.covered (row : AuditRow) : ChainRecord :=
  { row.record tenant (row.seq.getD 0) with metadata := row.metadata.bind platform.canonicalJSON }

/-- The text that is hashed for a row, from the hash that it names as the one before it. -/
def AuditRow.hashed (row : AuditRow) : Option Text :=
  (decodeDigest (trimSpace (row.prevHash.getD []))).map fun prev =>
    chainBytes platform prev (row.record tenant (row.seq.getD 0))
      (row.metadata.bind platform.canonicalJSON)

/-- The texts that are hashed for a tenant's rows. -/
def AuditStore.hashed (store : AuditStore) : List Text :=
  (store.chained tenant).filterMap (·.hashed platform tenant)

/-- The rows above the floor, in their order. -/
def AuditStore.aboveFloor (store : AuditStore) (floor : Nat) : List AuditRow :=
  (store.chained tenant).filter fun row => floor < row.seq.getD 0

/-- The unique index on tenant and sequence number. -/
def AuditStore.Indexed (store : AuditStore) : Prop :=
  (store.events.filter (·.chainedFor tenant)).Pairwise fun row other => row.seq ≠ other.seq

/-- The fields that are hashed. -/
def ChainRecord.fields (r : ChainRecord) (metadata : Option Text) : List (Option Text) :=
  [some (platform.uuidText r.tenantID), some (formatInt r.seq), some (platform.uuidText r.id),
    some (platform.timestampText r.timestamp), some r.method, some r.path,
    r.statusCode.map formatInt, r.userID, r.ipAddress, r.userAgent, r.durationMs.map formatInt,
    metadata]

/-- The rows continue a chain from one hash to another. -/
def Sealed : Digest → Nat → List AuditRow → Digest → Prop
  | prev, _, [], tip => prev = tip
  | prev, last, row :: rest, tip =>
    row.seq.getD 0 = last + 1 ∧ decodeDigest (trimSpace (row.prevHash.getD [])) = some prev ∧
      ∃ sum, chainHash platform prev (row.record tenant (last + 1)) = .ok sum ∧
        Sealed sum (last + 1) rest tip

variable {platform tenant}

theorem chainBytes_eq (prev : Digest) (r : ChainRecord) (metadata : Option Text) :
    chainBytes platform prev r metadata =
      chainDomain ++ (prev.val ++ (r.fields platform metadata).flatMap fieldBytes) :=
  (foldl_appendField _ _).trans (append_assoc _ _ _)

variable {prev tip : Digest} {last : Nat} {rows : List AuditRow} {row : AuditRow}

theorem sealed_of_append {more : List AuditRow}
    (held : Sealed platform tenant prev last (rows ++ more) tip) :
    ∃ before, Sealed platform tenant prev last rows before ∧
      Sealed platform tenant before (last + rows.length) more tip := by
  induction rows generalizing prev last with
  | nil => exact ⟨prev, rfl, held⟩
  | cons first rest ih =>
    obtain ⟨seq, link, sum, hashed, later⟩ := held
    obtain ⟨before, early, late⟩ := ih later
    rw [length_cons, Nat.add_comm rest.length, ← Nat.add_assoc]
    exact ⟨before, ⟨seq, link, sum, hashed, early⟩, late⟩

theorem Sealed.numbered (sealed : Sealed platform tenant prev last rows tip) :
    Numbered (fun row : AuditRow => row.seq.getD 0) last rows := by
  induction rows generalizing prev last with
  | nil => trivial
  | cons row rest ih =>
    obtain ⟨seq, _, sum, _, sealed⟩ := sealed
    exact ⟨seq, ih sealed⟩

/-- The hash of a row is the hash of its text. -/
theorem hash_of_chainHash {sum : Digest}
    (link : decodeDigest (trimSpace (row.prevHash.getD [])) = some prev)
    (made : chainHash platform prev (row.record tenant (row.seq.getD 0)) = .ok sum) :
    ∃ text, row.hashed platform tenant = some text ∧ platform.sha256 text = sum := by
  have covered : chainHash.hashed platform prev (row.record tenant (row.seq.getD 0))
      (row.metadata.bind platform.canonicalJSON) = .ok sum := by
    unfold chainHash at made
    cases document : row.metadata with
    | none => simpa [record, document] using made
    | some document' =>
      simp only [record, document] at made
      cases canonical : platform.canonicalJSON document' with
      | none => simp [canonical] at made
      | some text => simpa [record, document, canonical] using made
  unfold chainHash.hashed at covered
  split at covered
  · exact ⟨_, by rw [hashed, link, Option.map_some], Except.ok.inj covered⟩
  · cases covered

/-- Rows of one text have the same covered values and follow the same hash. -/
theorem covered_of_hashed (ids : Function.Injective platform.uuidText)
    (instants : Function.Injective platform.timestampText) {other : AuditRow} {text : Text}
    (sized : text.length < 2 ^ 63) (hashed : row.hashed platform tenant = some text)
    (hashed' : other.hashed platform tenant = some text) :
    row.covered platform tenant = other.covered platform tenant ∧
      decodeDigest (trimSpace (row.prevHash.getD [])) =
        decodeDigest (trimSpace (other.prevHash.getD [])) := by
  obtain ⟨prev, link, rfl⟩ := Option.map_eq_some_iff.mp hashed
  obtain ⟨prev', link', same⟩ := Option.map_eq_some_iff.mp hashed'
  rw [chainBytes_eq, chainBytes_eq] at same
  rw [chainBytes_eq, length_append, length_append] at sized
  obtain ⟨before, fields⟩ := append_inj (append_cancel_left same)
    (prev'.property.trans prev.property.symm)
  have fields := fields_inj (by rfl) fields.symm (by omega)
  simp only [ChainRecord.fields, cons.injEq, Option.some.injEq, and_true] at fields
  obtain ⟨own, seq, id, instant, method, path, status, user, address, agent, duration, document⟩ :=
    fields
  have number : ∀ value value' : Option Int, value.map formatInt = value'.map formatInt →
      value = value' := fun _ _ same => Option.map_injective formatInt_injective same
  refine ⟨?_, by rw [link, link', Subtype.ext before]⟩
  simp only [covered, record, ChainRecord.mk.injEq, true_and]
  exact ⟨Int.ofNat.inj (formatInt_injective seq), ids id, instants instant, method, path,
    number _ _ status, user, address, agent, number _ _ duration, document⟩

/-- As many rows that lead to the same hash agree, from the last one back.

Proof: the hashes at the end are the same, so are the texts that were hashed, and with them the
values of the last row and the hash before it. -/
theorem Sealed.agree (ids : Function.Injective platform.uuidText)
    (instants : Function.Injective platform.timestampText) {texts : List Text}
    (sized : ∀ text ∈ texts, text.length < 2 ^ 63) (collisionFree : ∀ text ∈ texts, ∀ other ∈ texts,
      platform.sha256 text = platform.sha256 other → text = other) {prev' : Digest}
    {rows' : List AuditRow} (count : rows.length = rows'.length)
    (hashed : ∀ row ∈ rows, ∀ text ∈ row.hashed platform tenant, text ∈ texts)
    (hashed' : ∀ row ∈ rows', ∀ text ∈ row.hashed platform tenant, text ∈ texts)
    (left : Sealed platform tenant prev last rows tip)
    (right : Sealed platform tenant prev' last rows' tip) :
    rows.map (·.covered platform tenant) = rows'.map (·.covered platform tenant) := by
  induction rows using reverseRecOn generalizing rows' tip with
  | nil =>
    rw [length_eq_zero_iff.mp count.symm]
  | append_singleton rows row ih =>
    obtain rfl | ⟨rows', row', rfl⟩ := eq_nil_or_concat' rows'
    · simp at count
    have count : rows.length = rows'.length := by simpa using count
    obtain ⟨before, early, seq, link, _, made, rfl⟩ := sealed_of_append left
    obtain ⟨before', early', seq', link', _, made', rfl⟩ := sealed_of_append right
    rw [← seq] at made
    rw [← seq'] at made'
    obtain ⟨text, own, sum⟩ := hash_of_chainHash link made
    obtain ⟨text', own', sum'⟩ := hash_of_chainHash link' made'
    have same : text = text' := collisionFree text (hashed row (by simp) text own) text'
      (hashed' row' (by simp) text' own') (sum.trans sum'.symm)
    subst same
    obtain ⟨covered, links⟩ := covered_of_hashed ids instants
      (sized text (hashed row (by simp) text own)) own own'
    obtain rfl : before = before' := by
      rw [link, link'] at links
      exact Option.some.inj links
    have earlier := ih count (fun row member => hashed row (by simp [member]))
      (fun row member => hashed' row (by simp [member])) early early'
    rw [map_append, map_append, earlier, map_singleton, map_singleton,
      covered]

end Rows

section Verified

variable {platform : Platform} {tenant : UUID}

variable {scan next : Scan} {row : AuditRow} {prev : Digest} {rows : List AuditRow}
  {last bound : Nat} {store : AuditStore} {head : ChainHead} {opts : VerifyOptions}

/-- A row that is checked continues the chain, and the scan stands at it. -/
theorem checkRow_ok (expected : decodeDigest scan.expectPrev = some prev)
    (checked : checkRow platform tenant scan row = .ok next) :
    row.seq.getD 0 = scan.expectSeq ∧
      decodeDigest (trimSpace (row.prevHash.getD [])) = some prev ∧
      ∃ sum, chainHash platform prev (row.record tenant scan.expectSeq) = .ok sum ∧
        next.expectSeq = scan.expectSeq + 1 ∧ decodeDigest next.expectPrev = some sum ∧
        next.after = scan.expectSeq ∧ next.checked = scan.checked + 1 ∧
        next.lastSeq = scan.expectSeq ∧ toLower next.lastHash = encodeHex sum.val := by
  unfold checkRow at checked
  by_cases seq : row.seq.getD 0 = scan.expectSeq
  · by_cases linked : equalFold (trimSpace (row.prevHash.getD [])) scan.expectPrev = true
    · simp only [seq, ne_eq, not_true_eq_false, if_false, linked, Bool.not_true, Bool.false_eq_true,
        expected] at checked
      cases made : chainHash platform prev (row.record tenant scan.expectSeq) with
      | error reason => simp [made] at checked
      | ok sum =>
        by_cases kept : equalFold (encodeHex sum.val) (trimSpace (row.rowHash.getD [])) = true
        · simp only [made, kept, Bool.not_true, Bool.false_eq_true, if_false,
            Except.ok.injEq] at checked
          obtain ⟨lowered, decoded⟩ := decodeDigest_of_equalFold kept
          subst checked
          refine ⟨seq, (decodeDigest_congr linked).trans expected, sum, rfl, rfl, ?_, rfl, rfl,
            rfl, lowered⟩
          rw [decodeDigest_toLower]
          exact decoded
        · simp [made, kept] at checked
    · simp [seq, linked] at checked
  · simp [seq] at checked

/-- Where a scan without a break has come to from a hash and a number, over some rows. -/
structure Scanned (tip : Digest) (last count : Nat) (scan next : Scan) : Prop where
  expectSeq : next.expectSeq = last + 1
  expectPrev : decodeDigest next.expectPrev = some tip
  after : next.after = last
  checked : next.checked = scan.checked + count
  newest : 0 < count → next.lastSeq = last ∧ toLower next.lastHash = encodeHex tip.val

/-- Rows that are checked without a break continue the chain. -/
theorem checkRows_sealed (position : scan.expectSeq = last + 1 ∧ scan.after = last)
    (expected : decodeDigest scan.expectPrev = some prev)
    (checked : checkRows platform tenant scan rows = (next, none)) :
    ∃ tip, Sealed platform tenant prev last rows tip ∧
      Scanned tip (last + rows.length) rows.length scan next := by
  induction rows generalizing scan prev last with
  | nil =>
    cases checked
    exact ⟨prev, rfl, position.1, expected, position.2, rfl, fun some => absurd some (by simp)⟩
  | cons row rest ih =>
    unfold checkRows at checked
    cases one : checkRow platform tenant scan row with
    | error broken => simp [one] at checked
    | ok following =>
      simp only [one] at checked
      obtain ⟨seq, link, sum, made, place, decoded, after, count, newest, hash⟩ :=
        checkRow_ok expected one
      rw [position.1] at seq made place after newest
      obtain ⟨tip, sealed, scanned⟩ := ih ⟨place, after⟩ decoded checked
      have total : last + (row :: rest).length = last + 1 + rest.length := by
        rw [length_cons]
        omega
      refine ⟨tip, ⟨seq, link, sum, made, sealed⟩, ?_⟩
      rw [total]
      refine ⟨scanned.expectSeq, scanned.expectPrev, scanned.after, ?_, fun _ => ?_⟩
      · rw [scanned.checked, count, length_cons]
        omega
      · cases rest with
        | nil =>
          cases checked
          cases sealed
          exact ⟨newest, hash⟩
        | cons second rest => exact scanned.newest (by simp)

/-- A row is only checked against a hash that can be read. -/
theorem decodes_of_checkRows (some : rows ≠ [])
    (checked : checkRows platform tenant scan rows = (next, none)) :
    ∃ prev, decodeDigest scan.expectPrev = Option.some prev := by
  cases rows with
  | nil => exact absurd rfl some
  | cons row rest =>
    cases decoded : decodeDigest scan.expectPrev with
    | some prev => exact ⟨prev, rfl⟩
    | none =>
      have refused : ∃ broken, checkRow platform tenant scan row = .error broken := by
        unfold checkRow
        rw [decoded]
        by_cases seq : row.seq.getD 0 = scan.expectSeq
        · by_cases linked : equalFold (trimSpace (row.prevHash.getD [])) scan.expectPrev = true
          · simp [seq, linked]
          · simp [seq, linked]
        · simp [seq]
      obtain ⟨broken, refused⟩ := refused
      simp [checkRows, refused] at checked

theorem chained_numbered (member : row ∈ store.chained tenant) : ∃ seq, row.seq = some seq := by
  have chained := (mem_filter.mp ((mem_insertionSort _).mp member)).2
  simp only [chainedFor, Bool.and_eq_true] at chained
  exact Option.isSome_iff_exists.mp chained.2

/-- The unique index makes the order of a tenant's rows strict. -/
theorem AuditStore.Indexed.sorted (indexed : store.Indexed tenant) :
    (store.chained tenant).Pairwise fun row other => row.seq.getD 0 < other.seq.getD 0 := by
  have sorted := store.chained_sorted tenant
  have distinct : (store.chained tenant).Pairwise fun row other => row.seq ≠ other.seq :=
    List.Pairwise.perm indexed (perm_insertionSort _ _).symm Ne.symm
  refine (sorted.and distinct).imp_of_mem ?_
  intro row other member member' both
  obtain ⟨seq, here⟩ := chained_numbered member
  obtain ⟨seq', there⟩ := chained_numbered member'
  rw [here, there] at both ⊢
  exact lt_of_le_of_ne both.1 fun same => both.2 (congrArg some same)

/-- What follows a part of ordered rows is what is numbered beyond its last row. -/
theorem filter_beyond {number : AuditRow → Nat} {count : Nat}
    (sorted : rows.Pairwise fun row other => number row < number other) (some : 0 < count)
    (enough : count ≤ rows.length) (numbered : Numbered number last (rows.take count)) :
    rows.filter (fun row => last + count < number row) = rows.drop count := by
  have length : (rows.take count).length = count := length_take_of_le enough
  conv_lhs => rw [← take_append_drop count rows, filter_append]
  have early : (rows.take count).filter (fun row => last + count < number row) = [] := by
    apply filter_eq_nil_iff.mpr
    intro row member
    have bounds := numbered.bounds row member
    simp only [decide_eq_true_eq]
    omega
  have late : (rows.drop count).filter (fun row => last + count < number row) =
      rows.drop count := by
    apply filter_eq_self.mpr
    intro row member
    obtain empty | ⟨before, newest, split⟩ := eq_nil_or_concat' (rows.take count)
    · rw [empty, length_nil] at length
      omega
    rw [split, numbered_append] at numbered
    have place : number newest = last + before.length + 1 := numbered.2.1
    have counted : before.length + 1 = count := by
      rw [split, length_append] at length
      exact length
    rw [← take_append_drop count rows] at sorted
    have ahead := (pairwise_append.mp sorted).2.2 newest (split ▸ by simp) row member
    exact decide_eq_true (by omega)
  rw [early, late, nil_append]

/-- The rows of a tenant in a range of sequence numbers. -/
def AuditStore.between (store : AuditStore) (tenant : UUID) (after bound : Nat) : List AuditRow :=
  (store.chained tenant).filter fun row => after < row.seq.getD 0 && row.seq.getD 0 ≤ bound

theorem checkRows_append {reached : Scan} {more : List AuditRow}
    (checked : checkRows platform tenant scan rows = (reached, none)) :
    checkRows platform tenant scan (rows ++ more) = checkRows platform tenant reached more := by
  induction rows generalizing scan with
  | nil =>
    cases checked
    rfl
  | cons row rest ih =>
    rw [checkRows] at checked
    rw [cons_append, checkRows]
    cases one : checkRow platform tenant scan row with
    | error broken => simp [one] at checked
    | ok next =>
      simp only [one] at checked ⊢
      exact ih checked

/-- Pages that are scanned without a break check all the rows of the range.

Proof: by induction on the pages that are left. A page that is not full holds the rest; what
follows a full one is numbered beyond its last row, where the next page starts. -/
theorem scanPages_checks {fuel : Nat} (indexed : store.Indexed tenant)
    (position : scan.expectSeq = last + 1 ∧ scan.after = last)
    (scanned : (scanPages platform tenant bound fuel scan).evaluate store.read =
      some (.ok (next, none))) :
    checkRows platform tenant scan (store.between tenant last bound) = (next, none) := by
  induction fuel generalizing scan last with
  | zero => simp [scanPages, evaluate] at scanned
  | succ fuel ih =>
    unfold scanPages at scanned
    rw [evaluate_bind] at scanned
    simp only [ask, perform, evaluate, AuditStore.read, Option.bind_some,
      position.2] at scanned
    rw [← AuditStore.between] at scanned
    cases page : checkRows platform tenant scan
        ((store.between tenant last bound).take verifyPageSize) with
    | mk reached broken =>
    rw [page] at scanned
    cases broken with
    | some broken => simp [evaluate] at scanned
    | none =>
    simp only [Option.isSome_none, Bool.false_eq_true, if_false] at scanned
    by_cases short : ((store.between tenant last bound).take verifyPageSize).length <
        verifyPageSize
    · simp only [short, if_true, pure_eq, evaluate, Option.some.injEq,
        Except.ok.injEq, Prod.mk.injEq, and_true] at scanned
      have whole : (store.between tenant last bound).take verifyPageSize =
          store.between tenant last bound := by
        rw [length_take] at short
        exact take_of_length_le (by omega)
      rw [← whole, page, scanned]
    · simp only [short, if_false] at scanned
      have length : ((store.between tenant last bound).take verifyPageSize).length =
          verifyPageSize := by
        rw [length_take] at short ⊢
        omega
      have enough : verifyPageSize ≤ (store.between tenant last bound).length := by
        rw [length_take] at length
        omega
      obtain ⟨prev, expected⟩ := decodes_of_checkRows
        (ne_nil_of_length_pos (by rw [length]; decide)) page
      obtain ⟨tip, linked, reaches⟩ := checkRows_sealed position expected page
      rw [length] at reaches
      have rest : store.between tenant (last + verifyPageSize) bound =
          (store.between tenant last bound).drop verifyPageSize := by
        have beyond := filter_beyond (indexed.sorted.filter _) (by decide) enough linked.numbered
        refine Eq.trans ?_ beyond
        rw [filter_filter]
        apply filter_congr
        intro row _
        by_cases beyond : last + verifyPageSize < row.seq.getD 0
        · simp [beyond, show last < row.seq.getD 0 by omega]
        · simp [beyond]
      rw [← take_append_drop verifyPageSize (store.between tenant last bound),
        checkRows_append page, ← rest]
      exact ih ⟨reaches.expectSeq, reaches.after⟩ scanned

/-- The tenant's chain verifies. -/
def AuditStore.Verifies (platform : Platform) (store : AuditStore) (tenant : UUID)
    (opts : VerifyOptions) : Prop :=
  ∃ report, store.verify platform tenant opts = some (.ok report) ∧ report.chainBreak = none

/-- The newest sequence number beyond one. -/
def AuditStore.newest (store : AuditStore) (tenant : UUID) (seq : Nat) : Option Nat :=
  ((store.chained tenant).filter fun row => seq < row.seq.getD 0).getLast?.bind (·.seq)

/-- A scan goes over all the pages and finds nothing at the end. -/
def AuditStore.ScansClean (platform : Platform) (store : AuditStore) (tenant : UUID)
    (head : ChainHead) (next : Scan) : Prop :=
  (scanPages platform tenant head.seq (head.seq + 1)
    { expectSeq := head.floorSeq + 1, expectPrev := trimSpace head.floorHash
      after := head.floorSeq }).evaluate store.read = some (.ok (next, none)) ∧
  findingOf (some head) next (store.newest tenant head.seq) (some head) = none

/-- A scan that ends without a break is clean. -/
theorem scanChain_unbroken {rep report : ChainReport} (present : store.heads tenant = some head)
    (returned : (scanChain platform tenant rep (some head)).evaluate store.read =
      some (.ok report)) (unbroken : report.chainBreak = none) :
    ∃ next, store.ScansClean platform tenant head next := by
  rw [scanChain, evaluate_bind] at returned
  obtain ⟨scanned, pages, returned⟩ := Option.bind_eq_some_iff.mp returned
  cases scanned with
  | error reason => simp [evaluate] at returned
  | ok result =>
    obtain ⟨next, found⟩ := result
    simp only [concludePass, concludeWith, evaluate_bind, ask, perform,
      evaluate, AuditStore.read, Option.bind_some, present] at returned
    rw [← AuditStore.newest] at returned
    by_cases void : (found.or (findingOf (some head) next (store.newest tenant head.seq)
        (some head))).any (isVoid (some head) (some head)) = true
    · rw [if_pos void] at returned
      cases returned
    · rw [if_neg void] at returned
      cases returned
      obtain ⟨rfl, none⟩ := Option.or_eq_none_iff.mp unbroken
      exact ⟨next, pages, none⟩

theorem AuditStore.Verifies.scanned (verifies : store.Verifies platform tenant opts)
    (present : store.heads tenant = some head) :
    ∃ next, store.ScansClean platform tenant head next := by
  obtain ⟨report, returned, unbroken⟩ := verifies
  rw [AuditStore.verify, drive_evaluate] at returned
  simp only [verifyOnce, evaluate_bind, ask, perform, evaluate,
    AuditStore.read, Option.bind_some, present] at returned
  generalize openReport _ _ _ _ = rep at returned
  obtain ⟨below, _, returned⟩ := Option.bind_eq_some_iff.mp returned
  cases below with
  | error reason => cases returned
  | ok below =>
    cases below with
    | some broken =>
      cases returned
      cases unbroken
    | none =>
      cases aged : floorAge opts head with
      | some broken =>
        simp only [aged] at returned
        cases returned
        cases unbroken
      | none =>
        simp only [aged] at returned
        exact scanChain_unbroken present returned unbroken

/-- What holds when the end of a pass finds nothing. -/
theorem findingOf_none {maxBeyond : Option Nat}
    (clean : findingOf (some head) scan maxBeyond (some head) = none) :
    (scan.checked = 0 → head.seq ≤ head.floorSeq) ∧
      (0 < scan.checked → head.seq ≤ scan.lastSeq ∧ scan.lastHash = trimSpace head.hash) ∧
      ∀ beyond ∈ maxBeyond, beyond ≤ head.seq := by
  simp only [findingOf, Option.map_some, Option.getD_some, ite_eq_right_iff, reduceCtorEq,
    imp_false, ite_eq_iff, and_false, false_or, not_and] at clean
  obtain ⟨kept, tail, extra, hash⟩ := clean
  refine ⟨fun none => by simpa using kept none, fun some => ⟨by simpa using tail some, ?_⟩, ?_⟩
  · by_contra other
    exact hash some other
  · intro beyond member
    simpa [Option.mem_def.mp member] using extra

/-- No row is numbered beyond the newest one. -/
theorem le_of_newest (none : ∀ beyond ∈ store.newest tenant bound, beyond ≤ bound) :
    ∀ row ∈ store.chained tenant, row.seq.getD 0 ≤ bound := by
  intro row member
  by_contra beyond
  have inside : row ∈ (store.chained tenant).filter fun row => bound < row.seq.getD 0 :=
    mem_filter.mpr ⟨member, decide_eq_true (by omega)⟩
  have last := getLast?_eq_some_getLast (ne_nil_of_mem inside)
  have held := mem_filter.mp (getLast_mem (ne_nil_of_mem inside))
  obtain ⟨seq, numbered⟩ := chained_numbered held.1
  have above := of_decide_eq_true held.2
  rw [numbered, Option.getD_some] at above
  have small := none seq (by rw [AuditStore.newest, last, Option.bind_some, numbered]; rfl)
  omega

/-- The rows above the floor of a chain that verifies lead to its head. -/
theorem AuditStore.Verifies.sealed (indexed : store.Indexed tenant)
    (verifies : store.Verifies platform tenant opts) (present : store.heads tenant = some head) :
    (store.aboveFloor tenant head.floorSeq).length = head.seq - head.floorSeq ∧
      (store.aboveFloor tenant head.floorSeq ≠ [] →
        ∃ prev tip,
          Sealed platform tenant prev head.floorSeq (store.aboveFloor tenant head.floorSeq) tip ∧
            toLower (trimSpace head.hash) = encodeHex tip.val) := by
  obtain ⟨next, scanned, clean⟩ := verifies.scanned present
  obtain ⟨empty, newest, beyond⟩ := findingOf_none clean
  have all : ∀ row ∈ store.chained tenant, row.seq.getD 0 ≤ head.seq := le_of_newest beyond
  have within : store.aboveFloor tenant head.floorSeq =
      store.between tenant head.floorSeq head.seq := by
    apply filter_congr
    intro row member
    simp [all row member]
  have checked := scanPages_checks indexed ⟨rfl, rfl⟩ scanned
  rw [← within] at checked
  by_cases some : store.aboveFloor tenant head.floorSeq = []
  · rw [some] at checked ⊢
    cases checked
    have none_left := empty rfl
    exact ⟨by simp; omega, fun other => absurd rfl other⟩
  · obtain ⟨prev, expected⟩ := decodes_of_checkRows some checked
    obtain ⟨tip, linked, reaches⟩ := checkRows_sealed
      (show _ = head.floorSeq + 1 ∧ _ = head.floorSeq from ⟨rfl, rfl⟩) expected checked
    have positive : 0 < (store.aboveFloor tenant head.floorSeq).length :=
      length_pos_iff.mpr some
    obtain ⟨lastSeq, lastHash⟩ := reaches.newest positive
    obtain ⟨whole, hash⟩ := newest (by rw [reaches.checked]; omega)
    refine ⟨?_, fun _ => ⟨prev, tip, linked, hash ▸ lastHash⟩⟩
    -- the last row is numbered by the count of the rows, and no row is beyond the head
    obtain none_left | ⟨before, row, split⟩ :=
      eq_nil_or_concat' (store.aboveFloor tenant head.floorSeq)
    · exact absurd none_left some
    have numbered := linked.numbered
    rw [split, numbered_append] at numbered
    have place : row.seq.getD 0 = head.floorSeq + before.length + 1 := numbered.2.1
    have member : row ∈ store.aboveFloor tenant head.floorSeq := split ▸ by simp
    have bound := all row (mem_filter.mp member).1
    have count : (store.aboveFloor tenant head.floorSeq).length = before.length + 1 := by
      rw [split, length_append]
      rfl
    omega

/-- Two states of a tenant's tables that both verify, with the same head and the same floor, hold
the same rows above the floor in every value that their hashes cover: no edit, removal, insertion
or reordering of these rows verifies without another head.

Proof: in both states the rows above the floor lead to the head's hash, as many as there are
numbers between the floor and the head; from the last one back each pair of rows has one hash,
so one text, and so the same values and the same hash before it. -/
theorem verified_rows_agree (ids : Function.Injective platform.uuidText)
    (instants : Function.Injective platform.timestampText) {left right : AuditStore}
    {opts opts' : VerifyOptions} {head head' : ChainHead} (indexed : left.Indexed tenant)
    (indexed' : right.Indexed tenant)
    (sized : ∀ text ∈ left.hashed platform tenant ++ right.hashed platform tenant,
      text.length < 2 ^ 63)
    (collisionFree : ∀ text ∈ left.hashed platform tenant ++ right.hashed platform tenant,
      ∀ other ∈ left.hashed platform tenant ++ right.hashed platform tenant,
        platform.sha256 text = platform.sha256 other → text = other)
    (present : left.heads tenant = some head) (present' : right.heads tenant = some head')
    (sameSeq : head.seq = head'.seq) (sameHash : head.hash = head'.hash)
    (sameFloor : head.floorSeq = head'.floorSeq) (verifies : left.Verifies platform tenant opts)
    (verifies' : right.Verifies platform tenant opts') :
    (left.aboveFloor tenant head.floorSeq).map (·.covered platform tenant) =
      (right.aboveFloor tenant head'.floorSeq).map (·.covered platform tenant) := by
  obtain ⟨count, leads⟩ := verifies.sealed indexed present
  obtain ⟨count', leads'⟩ := verifies'.sealed indexed' present'
  have counts : (left.aboveFloor tenant head.floorSeq).length =
      (right.aboveFloor tenant head'.floorSeq).length := by
    rw [count, count', sameSeq, sameFloor]
  have texts : ∀ (store : AuditStore) (floor : Nat), ∀ row ∈ store.aboveFloor tenant floor,
      ∀ text ∈ row.hashed platform tenant, text ∈ store.hashed platform tenant := by
    intro store floor row member text hashed
    exact mem_filterMap.mpr ⟨row, (mem_filter.mp member).1, hashed⟩
  by_cases none_left : left.aboveFloor tenant head.floorSeq = []
  · have none_right := length_eq_zero_iff.mp (counts ▸ congrArg length none_left)
    rw [none_left, none_right]
  · have some_right : right.aboveFloor tenant head'.floorSeq ≠ [] := by
      intro none_right
      exact none_left (length_eq_zero_iff.mp (counts.trans (congrArg length none_right)))
    obtain ⟨prev, tip, linked, hash⟩ := leads none_left
    obtain ⟨prev', tip', linked', hash'⟩ := leads' some_right
    obtain rfl : tip = tip' := by
      apply Subtype.ext
      apply encodeHex_injective
      rw [← hash, ← hash', sameHash]
    rw [← sameFloor] at linked' ⊢
    refine Sealed.agree ids instants sized collisionFree (sameFloor ▸ counts) ?_ ?_ linked linked'
    · exact fun row member text own => mem_append_left _ (texts left _ row member text own)
    · exact fun row member text own => mem_append_right _ (texts right _ row member text own)

/-- Surroundings in which a hash tells the length of its text, and white space does not matter in
documents. -/
def lengthPlatform : Platform where
  sha256 text := ⟨UInt8.ofNat text.length :: List.replicate 31 0, rfl⟩
  uuidText id := formatInt id
  timestampText := formatInt
  canonicalJSON document := some (document.filter fun byte => !isSpace byte)
  storeJSON := some

/-- The tables after two events. -/
def twoEvents : AuditStore :=
  (playAll (AuditStore.serve lengthPlatform 0 9) 0
    ([.record (fun _ => false) { tenantID := 1, id := 7 } 1,
      .record (fun _ => false) { tenantID := 1, id := 8, path := [47] } 1].map
        (Work.program lengthPlatform)) emptyStore).1.getLast?.elim emptyStore (·.after)

/-- The same rows stored in another order and with white space in their documents. -/
def respelled : AuditStore where
  events := (twoEvents.events.map fun row =>
    { row with metadata := row.metadata.map (32 :: ·) }).reverse
  heads := twoEvents.heads

/-- The report on the two rows. -/
def twoReport : ChainReport :=
  { tenantID := 1, checked := 2, floorHash := zeroHashHex, headSeq := 2
    headHash := ((twoEvents.heads 1).map (·.hash)).getD [] }

theorem verified_rows_agree_respelled :
    twoEvents.events.map (·.metadata) ≠ respelled.events.map (·.metadata) ∧
      (twoEvents.aboveFloor 1 0).map (·.covered lengthPlatform 1) =
        (respelled.aboveFloor 1 0).map (·.covered lengthPlatform 1) := by
  refine ⟨by decide +kernel, ?_⟩
  have present : twoEvents.heads 1 =
      some { seq := 2, hash := ((twoEvents.heads 1).map (·.hash)).getD [] } := by decide +kernel
  have verified : twoEvents.verify lengthPlatform 1 {} = some (.ok twoReport) := by decide +kernel
  have verified' : respelled.verify lengthPlatform 1 {} = some (.ok twoReport) := by decide +kernel
  exact verified_rows_agree (fun _ _ same => Int.ofNat.inj (formatInt_injective same))
    formatInt_injective (by unfold AuditStore.Indexed; decide +kernel)
    (by unfold AuditStore.Indexed; decide +kernel) (by decide +kernel) (by decide +kernel)
    present present rfl rfl rfl ⟨_, verified, rfl⟩ ⟨_, verified', rfl⟩

end Verified
end Cleat.Audit
