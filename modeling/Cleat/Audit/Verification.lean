import Cleat.Audit.Intact

/-!
# What a verification pass finds

A pass reads the head, the pages of rows and the head again while others append and sweep. Each
page shows the rows of the log between where the pass is and where it is bound, as far as
retention has left them. So the pass verifies row after row until it reaches the head it has
read, or until it falls below a floor that has moved over it. The second reading of the head
tells the two apart.
-/
namespace Cleat.Audit

open Encoding Durable List Option

section Scanning

variable {fails : Prop} {platform : Platform} {tenant : UUID}

/-- The scan has verified the rows of a log from a start up to a place. -/
structure Reached (log : List AuditRow) (start place : Nat) (scan : Scan) : Prop where
  from_start : start ≤ place
  inside : place ≤ log.length
  expectSeq : scan.expectSeq = place + 1
  expectPrev : scan.expectPrev = encodeHex (tipOf zeroHash (log.take place)).val
  after : scan.after = place
  checked : scan.checked = place - start
  newest : start < place → scan.lastSeq = place ∧
    scan.lastHash = encodeHex (tipOf zeroHash (log.take place)).val

variable {log added : List AuditRow} {start place : Nat} {scan : Scan}

theorem Reached.extend (reached : Reached log start place scan) :
    Reached (log ++ added) start place scan := by
  have same : (log ++ added).take place = log.take place :=
    take_append_of_le_length reached.inside
  refine ⟨reached.from_start, ?_, reached.expectSeq, same ▸ reached.expectPrev, reached.after,
    reached.checked, same ▸ reached.newest⟩
  rw [length_append]
  exact Nat.le_add_right_of_le reached.inside

/-- The row after the place where the scan is verifies. -/
theorem checkRow_reached (linked : Linked platform tenant zeroHash 0 log)
    (reached : Reached log start place scan) {row : AuditRow} (found : log[place]? = some row) :
    ∃ next, checkRow platform tenant scan row = .ok next ∧ Reached log start (place + 1) next := by
  obtain ⟨within, here⟩ := List.getElem?_eq_some_iff.mp found
  have split := linked
  rw [← take_append_drop place log, linked_append, drop_eq_getElem_cons within, here,
    Nat.zero_add, length_take_of_le reached.inside] at split
  obtain ⟨_, _, seq, link, sum, hashed, hash, _⟩ := split
  have tip : sum = tipOf zeroHash (log.take (place + 1)) := by
    have own := linked.rowHash found
    rw [hash] at own
    have decoded := congrArg (fun text => text.bind decodeDigest) own
    simpa using decoded
  refine ⟨{ expectSeq := place + 2, expectPrev := encodeHex sum.val, after := place + 1
            checked := scan.checked + 1, lastSeq := place + 1, lastHash := encodeHex sum.val },
    ?_, ?_⟩
  · simp only [checkRow, seq, link, hash, getD_some, trimSpace_encodeHex, reached.expectSeq,
      reached.expectPrev, equalFold_self, decodeDigest_encodeHex, hashed, toLower_encodeHex,
      ne_eq, not_true_eq_false, if_false, Bool.not_true, Bool.false_eq_true]
  · subst tip
    have counted := reached.checked
    have from_start := reached.from_start
    exact ⟨Nat.le_succ_of_le from_start, within, rfl, rfl, rfl, by dsimp only; omega,
      fun _ => ⟨rfl, rfl⟩⟩

/-- Rows that follow one another from the place where the scan is verify. -/
theorem checkRows_reached (linked : Linked platform tenant zeroHash 0 log)
    (reached : Reached log start place scan) (count : Nat) :
    ∃ next, checkRows platform tenant scan ((log.drop place).take count) = (next, none) ∧
      Reached log start (place + ((log.drop place).take count).length) next := by
  induction count generalizing place scan with
  | zero => exact ⟨scan, by simp [checkRows], by simpa using reached⟩
  | succ count ih =>
    cases found : log[place]? with
    | none =>
      have ended : log.drop place = [] :=
        drop_eq_nil_of_le (getElem?_eq_none_iff.mp found)
      exact ⟨scan, by simp [ended, checkRows], by simpa [ended] using reached⟩
    | some row =>
      obtain ⟨within, here⟩ := List.getElem?_eq_some_iff.mp found
      obtain ⟨next, verified, reached⟩ := checkRow_reached linked reached found
      obtain ⟨last, rest, reached⟩ := ih reached
      refine ⟨last, ?_, ?_⟩
      · rw [drop_eq_getElem_cons within, here, take_succ_cons, checkRows, verified]
        exact rest
      · rw [drop_eq_getElem_cons within, take_succ_cons, length_cons]
        have same : place + (((log.drop (place + 1)).take count).length + 1) =
            place + 1 + ((log.drop (place + 1)).take count).length := by omega
        rw [same]
        exact reached

/-- How the scan of the pages ends: with a failed read, at its bound or at the end of the log,
or below a floor that has moved over the place where it is. -/
def ScanEnds (fails : Prop) (platform : Platform) (tenant : UUID) (log : List AuditRow) (floor start bound : Nat)
    (result : Except VerifyError (Scan × Option ChainBreak)) (store : AuditStore) : Prop :=
  match result with
  | .error reason => fails ∧ ∃ failed, reason = .database failed
  | .ok (scan, found) => ∃ added floor', floor ≤ floor' ∧
      Keeps platform store tenant (log ++ added) floor' ∧
      ∃ place, Reached (log ++ added) start place scan ∧ place ≤ bound ∧
        (found = none ∧ (place = bound ∨ place = (log ++ added).length) ∨
          place < floor' ∧ ∀ broken ∈ found, broken.seq ≤ floor')

variable {Rely : AuditStore → AuditStore → Prop} {Shows : AuditStore → AuditObserved → Prop}

variable {store : AuditStore} {floor bound : Nat}

/-- A question amid others: a failure, or what the tables show when it is answered. -/
theorem amid_ask {α : Type} {query : AuditQuery} {next : AuditAnswer query → AuditProgram α}
    {post : α → AuditStore → Prop} (shows : ∀ s observed, Shows s observed → Shown fails s observed)
    (failed : ∀ later reason, Rely store later → fails →
      (next (failure reason query)).Amid Rely Shows later post)
    (answered : ∀ later answer, Rely store later → Shows later ⟨query, answer⟩ →
      later.read query = some answer → (next answer).Amid Rely Shows later post) :
    (ask query >>= next).Amid Rely Shows store post := by
  intro later relied answer shown
  obtain read | ⟨possible, reason, same⟩ := shows _ _ shown
  · exact answered later answer relied shown read
  · have failure_eq : answer = failure reason query := same
    subst failure_eq
    exact failed later reason relied possible

theorem ScanEnds.of_later {floor' : Nat} {result : Except VerifyError (Scan × Option ChainBreak)}
    (rises : floor ≤ floor')
    (ends : ScanEnds fails platform tenant (log ++ added) floor' start bound result store) :
    ScanEnds fails platform tenant log floor start bound result store := by
  cases result with
  | error reason => exact ends
  | ok result =>
    obtain ⟨more, floor'', rises', keeps, rest⟩ := ends
    rw [append_assoc] at keeps rest
    exact ⟨added ++ more, floor'', Nat.le_trans rises rises', keeps, rest⟩

/-- The pages of a scan that starts at a place of the log.

Proof: by induction on the pages that are left. Each page shows the rows from where the scan is,
unless the floor has moved over that place; a full page moves the scan on, and a page that is
not full has reached the bound or the end of the log. -/
theorem scanPages_ends (relies : ∀ s t, Rely s t → Grows platform tenant s t)
    (shows : ∀ s observed, Shows s observed → Shown fails s observed) (fuel : Nat)
    (keeps : Keeps platform store tenant log floor) (reached : Reached log start place scan)
    (bounded : place ≤ bound) (enough : bound < fuel + place) :
    (scanPages platform tenant bound fuel scan).Amid Rely Shows store
      (ScanEnds fails platform tenant log floor start bound) := by
  induction fuel generalizing log floor store place scan with
  | zero => omega
  | succ fuel ih =>
    refine amid_ask shows (fun _ reason _ possible => ⟨possible, reason, rfl⟩) ?_
    intro later answer relied _ read
    obtain ⟨added, floor', rises, keeps⟩ := relies _ _ relied _ _ keeps
    have reached : Reached (log ++ added) start place scan := reached.extend
    rw [keeps.page, reached.after] at read
    obtain rfl := some.inj read
    dsimp only
    by_cases left : floor' ≤ place
    · -- the rows from the place on are still there
      have place_eq : floor' + (place - floor') = place := by omega
      have bound_eq : bound - floor' - (place - floor') = bound - place := by omega
      rw [drop_drop, place_eq, bound_eq, take_take]
      obtain ⟨next, verified, reached⟩ :=
        checkRows_reached keeps.linked reached (min verifyPageSize (bound - place))
      rw [verified]
      have size : (((log ++ added).drop place).take (min verifyPageSize (bound - place))).length =
          min (min verifyPageSize (bound - place)) ((log ++ added).length - place) := by
        rw [length_take, length_drop]
      have inside := reached.inside
      simp only [isSome_none, Bool.false_eq_true, if_false]
      split
      · rename_i short
        exact ⟨added, floor', rises, keeps, _, reached, by omega, .inl ⟨rfl, by omega⟩⟩
      · rename_i full
        have positive : 0 < verifyPageSize := by decide
        exact (ih keeps reached (by omega) (by omega)).mono fun _ _ ends => ends.of_later rises
    · -- the floor has moved over the place
      have start_over : place - floor' = 0 := by omega
      rw [start_over, drop_zero, Nat.sub_zero, take_take]
      cases rows : ((log ++ added).drop floor').take (min verifyPageSize (bound - floor')) with
      | nil =>
        exact ⟨added, floor', rises, keeps, place, reached, bounded, .inr ⟨by omega, by simp⟩⟩
      | cons row rest =>
        have numbered := (keeps.linked.numbered.drop keeps.within).take
          (min verifyPageSize (bound - floor'))
        rw [rows, Nat.zero_add] at numbered
        have gap : row.seq.getD 0 ≠ scan.expectSeq := by
          have first : row.seq.getD 0 = floor' + 1 := numbered.1
          rw [first, reached.expectSeq]
          omega
        simp only [checkRows, checkRow, if_pos gap, isSome_some, if_true]
        refine ⟨added, floor', rises, keeps, place, reached, bounded, .inr ⟨by omega, ?_⟩⟩
        intro broken found
        obtain rfl := some.inj found
        have expected := reached.expectSeq
        dsimp only
        omega

end Scanning

section Passing

variable {fails : Prop} {platform : Platform} {tenant : UUID} {opts : VerifyOptions}
  {Rely : AuditStore → AuditStore → Prop} {Shows : AuditStore → AuditObserved → Prop}
  {store : AuditStore} {log : List AuditRow} {floor : Nat}

/-- How a pass ends: with a failed read, with a head that is no longer the one that it read
first, or with a report without a break on all rows from the floor to the head. -/
def PassEnds (fails : Prop) (tenant : UUID) (Rely : AuditStore → AuditStore → Prop) (store : AuditStore)
    (result : Except VerifyError ChainReport) (last : AuditStore) : Prop :=
  match result with
  | .error (.database _) => fails
  | .error .unfinished => False
  | .error .chainMoved => ∃ first, Rely store first ∧ Rely first last ∧
      first.heads tenant ≠ last.heads tenant
  | .ok report => report.chainBreak = none ∧
      report.checked = report.headSeq - report.floorSeq ∧
      ∃ first, Rely store first ∧ report.headSeq = ((first.heads tenant).map (·.seq)).getD 0 ∧
        report.floorSeq = ((first.heads tenant).map (·.floorSeq)).getD 0

/-- The head row of a log that has rows is there. -/
theorem Keeps.head_exists (keeps : Keeps platform store tenant log floor) (rows : log ≠ []) :
    ∃ head, store.heads tenant = some head ∧ Describes log floor (some head) := by
  have describes := keeps.head
  cases found : store.heads tenant with
  | none =>
    rw [found] at describes
    exact absurd describes rows
  | some head => exact ⟨head, rfl, found ▸ describes⟩

variable (shows : ∀ s observed, Shows s observed → Shown fails s observed)
  (relies : ∀ s t, Rely s t → Grows platform tenant s t)

include shows relies

theorem belowFloor_ends (keeps : Keeps platform store tenant log floor) {head : Option ChainHead}
    (describes : ∀ row ∈ head, row.floorSeq ≤ floor) :
    (belowFloor tenant head).Amid Rely Shows store fun result _ =>
      fails ∧ (∃ reason, result = .error reason) ∨ result = .ok none := by
  cases head with
  | none => exact .inr rfl
  | some head =>
    rw [belowFloor]
    split
    · exact .inr rfl
    · refine amid_ask shows ?_ ?_
      · exact fun _ reason _ possible => Or.inl ⟨possible, reason, rfl⟩
      intro later answer relied _ read
      obtain ⟨added, floor', rises, keeps⟩ := relies _ _ relied _ _ keeps
      rw [keeps.rowsUpTo (Nat.le_trans (describes head rfl) rises)] at read
      obtain rfl := some.inj read
      exact .inr rfl

variable {first scanned third : AuditStore} {rep : ChainReport} {scan : Scan}
  {found : Option ChainBreak} {head : ChainHead}

variable (transitive : ∀ {s t u}, Rely s t → Rely t u → Rely s u)

include transitive

/-- A pass that began without a head: rows that it has seen are those of a head that was made
meanwhile. -/
theorem concludePass_headless (started : Rely store first) (passed : Rely first scanned)
    (absent : first.heads tenant = none) (headless : rep.headSeq = 0 ∧ rep.floorSeq = 0)
    {bound : Nat} (ends : ScanEnds fails platform tenant [] 0 0 bound (.ok (scan, found)) scanned) :
    (concludePass tenant rep none scan found).Amid Rely Shows scanned (PassEnds fails tenant Rely store) := by
  obtain ⟨added, floor', _, keeps, place, reached, _, stopped⟩ := ends
  refine amid_ask shows (fun _ _ _ possible => possible) ?_
  intro last answer relied _ read
  obtain rfl := some.inj read
  have checked := reached.checked
  by_cases seen : added = []
  · -- no row was there to be seen
    subst seen
    have place_zero : place = 0 := Nat.le_zero.mp reached.inside
    have floor_zero : floor' = 0 := Nat.le_zero.mp keeps.within
    obtain ⟨rfl, _⟩ | ⟨impossible, _⟩ := stopped
    · have unchecked : scan.checked = 0 := by omega
      simp only [findingOf, unchecked, Option.or]
      exact ⟨rfl, by rw [headless.1, headless.2], first, started, by rw [absent, headless.1]; rfl,
        by rw [absent, headless.2]; rfl⟩
    · omega
  · have appeared : ∃ head, last.heads tenant = some head := by
      obtain ⟨more, _, _, later⟩ := relies _ _ relied _ _ keeps
      obtain ⟨head, present, _⟩ := later.head_exists (by simp [seen])
      exact ⟨head, present⟩
    obtain ⟨head, present⟩ := appeared
    have moved : PassEnds fails tenant Rely store (.error .chainMoved) last :=
      ⟨first, started, transitive passed relied, by rw [absent, present]; simp⟩
    cases finding : found.or (findingOf none scan none (last.heads tenant)) with
    | none =>
      have unfound : found = none ∧ findingOf none scan none (last.heads tenant) = none :=
        or_eq_none_iff.mp finding
      have unchecked : scan.checked = 0 := by
        have none_found := unfound.2
        simp only [findingOf] at none_found
        split at none_found
        · cases none_found
        · omega
      simp only [finding]
      exact ⟨rfl, by rw [headless.1, headless.2]; exact unchecked, first, started,
        by rw [absent, headless.1]; rfl, by rw [absent, headless.2]; rfl⟩
    | some broken =>
      have void : isVoid none (last.heads tenant) broken = true := by rw [present]; rfl
      simp only [finding, any_some, void, if_true]
      exact moved

/-- A pass that began with a head: it has verified every row up to that head, or the floor has
moved over the place where it stopped. -/
theorem concludePass_headed (started : Rely store first) (passed : Rely first scanned)
    (present : first.heads tenant = some head) (describes : Describes log floor (some head))
    (headed : rep.headSeq = head.seq ∧ rep.floorSeq = head.floorSeq)
    (ends : ScanEnds fails platform tenant log floor floor head.seq (.ok (scan, found)) scanned) :
    (concludePass tenant rep (some head) scan found).Amid Rely Shows scanned
      (PassEnds fails tenant Rely store) := by
  obtain ⟨added, floor', rises, keeps, place, reached, bounded, stopped⟩ := ends
  obtain ⟨newest, tip, rfl, anchor⟩ := describes
  have from_start := reached.from_start
  have checked := reached.checked
  have inside := keeps.within
  rw [length_append] at inside
  refine amid_ask shows (fun _ _ _ possible => possible) ?_
  intro fourth beyond relied _ read
  obtain ⟨more, floor₄, rises₄, keeps₄⟩ := relies _ _ relied _ _ keeps
  cases beyond with
  | error reason => cases some.inj read
  | ok beyond =>
    have bounded_beyond := keeps₄.newestBeyond read
    refine amid_ask shows (fun _ _ _ possible => possible) ?_
    intro last answer relied' _ read
    obtain rfl := some.inj read
    obtain ⟨most, floor₅, rises₅, keeps₅⟩ := relies _ _ relied' _ _ keeps₄
    have covered : beyond.any (· > ((last.heads tenant).map (·.seq)).getD 0) = false := by
      have describes₅ := keeps₅.head
      cases held : last.heads tenant with
      | none =>
        rw [held] at describes₅
        have empty : (log ++ added ++ more) = [] := (append_eq_nil_iff.mp describes₅).1
        rw [empty] at bounded_beyond
        cases beyond with
        | none => rfl
        | some number => simpa using bounded_beyond number rfl
      | some head₅ =>
        rw [held] at describes₅
        have longer : (log ++ added ++ more).length ≤ head₅.seq := by
          rw [describes₅.1]
          simp only [length_append]
          omega
        cases beyond with
        | none => rfl
        | some number =>
          have within := bounded_beyond number rfl
          simpa using Nat.le_trans within longer
    by_cases complete : found = none ∧ place = head.seq
    · -- every row up to the head was verified
      obtain ⟨rfl, complete⟩ := complete
      have whole : (log ++ added).take place = log := by
        rw [complete, newest, take_left]
      have nothing : findingOf (some head) scan beyond (last.heads tenant) = none := by
        simp only [findingOf, covered]
        have tail : ¬ (scan.checked = 0 ∧ head.seq > head.floorSeq) := by omega
        have reached_head : ¬ (scan.checked > 0 ∧ scan.lastSeq < head.seq) := by
          rintro ⟨some_checked, short⟩
          have := (reached.newest (by omega)).1
          omega
        have matches_head : ¬ (scan.checked > 0 ∧ scan.lastHash ≠ trimSpace head.hash) := by
          rintro ⟨some_checked, differs⟩
          have hash := (reached.newest (by omega)).2
          rw [whole] at hash
          rw [hash, tip, trimSpace_encodeHex] at differs
          exact differs rfl
        simp [if_neg tail, if_neg reached_head, if_neg matches_head]
      simp only [nothing, or_none]
      refine ⟨rfl, ?_, first, started, by rw [present, headed.1]; rfl,
        by rw [present, headed.2]; rfl⟩
      rw [headed.1, headed.2]
      exact checked.trans (by rw [complete])
    · -- the floor has moved over the place where the scan stopped
      have moved_over : place < floor' ∧ ∀ broken ∈ found, broken.seq ≤ floor' := by
        obtain ⟨rfl, stopped⟩ | stopped := stopped
        · have longer : log.length ≤ (log ++ added).length := by simp
          exact absurd ⟨rfl, by omega⟩ complete
        · exact stopped
      have rows : log ++ added ++ more ++ most ≠ [] := by
        intro empty
        have := congrArg length empty
        simp only [length_append, length_nil] at this
        omega
      obtain ⟨head₅, held, describes₅⟩ := keeps₅.head_exists rows
      have floor_eq : head₅.floorSeq = floor₅ := describes₅.2.2.1
      have differs : first.heads tenant ≠ last.heads tenant := by
        rw [present, held]
        intro same
        have := congrArg ChainHead.floorSeq (some.inj same)
        omega
      have moved : PassEnds fails tenant Rely store (.error .chainMoved) last :=
        ⟨first, started, transitive passed (transitive relied relied'), differs⟩
      have finding : ∃ broken, found.or (findingOf (some head) scan beyond (last.heads tenant)) =
          some broken ∧ broken.seq ≤ floor' := by
        cases found with
        | some broken => exact ⟨broken, rfl, moved_over.2 broken rfl⟩
        | none =>
          have short : place < head.seq := by
            have : place ≠ head.seq := fun same => complete ⟨rfl, same⟩
            omega
          by_cases some_checked : scan.checked = 0
          · refine ⟨{ seq := head.floorSeq + 1, kind := .truncatedTail }, ?_, ?_⟩
            · simp only [none_or, findingOf]
              rw [if_pos ⟨some_checked, by omega⟩]
            · dsimp only
              omega
          · have newest_row := (reached.newest (by omega)).1
            refine ⟨{ seq := scan.lastSeq + 1, kind := .truncatedTail }, ?_, ?_⟩
            · simp only [none_or, findingOf]
              rw [if_neg (by omega), if_pos ⟨by omega, by omega⟩]
            · dsimp only
              omega
      obtain ⟨broken, finding, low⟩ := finding
      have void : isVoid (some head) (last.heads tenant) broken = true := by
        rw [held]
        have moved_floor : head₅.floorSeq ≠ head.floorSeq := by omega
        have below : broken.seq ≤ head₅.floorSeq := by omega
        simp [isVoid, moved_floor, below]
      simp only [finding, any_some, void, if_true]
      exact moved

variable (reflexive : ∀ s, Rely s s)

include reflexive

/-- The scan of a pass that began without a head. -/
theorem scanChain_headless (started : Rely store first) (passed : Rely first third)
    (absent : first.heads tenant = none) (headless : rep.headSeq = 0 ∧ rep.floorSeq = 0)
    (keeps : Keeps platform third tenant log floor) :
    (scanChain platform tenant rep none).Amid Rely Shows third (PassEnds fails tenant Rely store) := by
  have reached : Reached log 0 0 { expectSeq := 1, expectPrev := zeroHashHex, after := 0 } :=
    ⟨Nat.le_refl 0, Nat.zero_le _, rfl, rfl, rfl, rfl, fun nothing => absurd nothing (Nat.lt_irrefl 0)⟩
  have scans := scanPages_ends relies shows (maxInt64 + 1) keeps reached (Nat.zero_le maxInt64)
    (Nat.lt_succ_self maxInt64)
  unfold scanChain
  rw [Program.amid_bind]
  refine (scans.relied reflexive transitive).mono fun result scanned held => ?_
  obtain ⟨relied, ends⟩ := held
  cases result with
  | error reason =>
    obtain ⟨possible, failed, rfl⟩ := ends
    exact possible
  | ok result =>
    have whole : ScanEnds fails platform tenant ([] ++ log) floor 0 maxInt64 (.ok result) scanned := ends
    exact concludePass_headless shows relies transitive started (transitive passed relied) absent
      headless (whole.of_later (Nat.zero_le floor))

/-- The scan of a pass that began with a head. -/
theorem scanChain_headed (started : Rely store first) (passed : Rely first third)
    (keeps : Keeps platform first tenant log floor) (present : first.heads tenant = some head)
    (headed : rep.headSeq = head.seq ∧ rep.floorSeq = head.floorSeq) :
    (scanChain platform tenant rep (some head)).Amid Rely Shows third
      (PassEnds fails tenant Rely store) := by
  have describes := keeps.head
  rw [present] at describes
  obtain ⟨newest, tip, floored, anchor⟩ := id describes
  obtain ⟨added, floor', rises, later⟩ := relies _ _ passed _ _ keeps
  have reached : Reached log floor floor
      { expectSeq := head.floorSeq + 1, expectPrev := trimSpace head.floorHash
        after := head.floorSeq } := by
    refine ⟨Nat.le_refl floor, keeps.within, by rw [floored], ?_, floored, by rw [Nat.sub_self],
      fun nothing => absurd nothing (Nat.lt_irrefl floor)⟩
    rw [anchor, trimSpace_encodeHex]
  have within : floor ≤ head.seq := newest ▸ keeps.within
  have scans := scanPages_ends relies shows (head.seq + 1) later reached.extend within (by omega)
  unfold scanChain
  rw [Program.amid_bind]
  refine (scans.relied reflexive transitive).mono fun result scanned held => ?_
  obtain ⟨relied, ends⟩ := held
  cases result with
  | error reason =>
    obtain ⟨possible, failed, rfl⟩ := ends
    exact possible
  | ok result =>
    exact concludePass_headed shows relies transitive started (transitive passed relied) present
      describes headed (ends.of_later rises)

/-- What a pass ends with if no floor that it can read is too young. -/
theorem verifyOnce_ends
    (expired : ∀ s observed, Shows s observed → ∀ head, s.heads tenant = some head →
      floorAge opts head = none) (keeps : Keeps platform store tenant log floor) :
    (verifyOnce platform tenant opts).Amid Rely Shows store (PassEnds fails tenant Rely store) := by
  refine amid_ask shows (fun _ _ _ possible => possible) ?_
  intro first answer started shown read
  obtain ⟨before, floor₁, _, keeps⟩ := relies _ _ started _ _ keeps
  obtain rfl := some.inj read
  refine amid_ask shows (fun _ _ _ possible => possible) ?_
  intro second unchained relied _ counted
  cases unchained with
  | error reason => cases some.inj counted
  | ok unchained =>
    obtain ⟨added, floor₂, rises, keeps₂⟩ := relies _ _ relied _ _ keeps
    have floors : ∀ row ∈ first.heads tenant, row.floorSeq ≤ floor₂ := by
      intro row present
      have described := keeps.head
      rw [mem_def.mp present] at described
      exact described.2.2.1 ▸ rises
    rw [Program.amid_bind]
    refine ((belowFloor_ends shows relies keeps₂ floors).relied reflexive transitive).mono ?_
    rintro result third ⟨relied', ⟨possible, reason, rfl⟩ | rfl⟩
    · exact possible
    · have passed : Rely first third := transitive relied relied'
      cases present : first.heads tenant with
      | none =>
        obtain ⟨_, _, _, keeps₃⟩ := relies _ _ passed _ _ keeps
        exact scanChain_headless shows relies transitive reflexive started passed present
          ⟨rfl, rfl⟩ keeps₃
      | some head =>
        have old := expired first _ shown head present
        simp only [bind_some, old]
        exact scanChain_headed shows relies transitive reflexive started passed keeps present
          ⟨rfl, rfl⟩

end Passing

end Cleat.Audit
