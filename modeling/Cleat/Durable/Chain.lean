import Mathlib.Data.List.Induction

/-!
# Chained checksums

A log whose rows carry checksums, each computed from the document of its row and the
checksum before it. A row without a checksum interrupts the chain, and the next one starts
anew. `Chained` is what a verifier checks, and `tip` is the checksum from which the next row
is to be chained.

A chain is often extended twice: a writer chains each row from the checksum it remembers,
and whatever it failed to write is filled in later by a second pass that chains from the
rows that are there. `settle` is the outcome. It is right for every hash exactly if the
writer is `Steady`: once it has lost track it leaves no row behind.

What holds for every hash is decided by one hash: `spell`, which loses nothing.
-/
namespace Durable

open List Option

variable {D C : Type}

section
variable (hash : D → Option C → C)

/-- The rows of a log, each with the document as it is read and its checksum, form a chain
that continues a previous checksum. -/
def Chained : Option C → List (D × Option C) → Prop
  | _, [] => True
  | _, (_, none) :: rest => Chained none rest
  | previous, (document, some checksum) :: rest =>
    hash document previous = checksum ∧ Chained (some checksum) rest

/-- The checksum that the next row of a log continues. -/
def tip : Option C → List (D × Option C) → Option C
  | previous, [] => previous
  | _, (_, checksum) :: rest => tip checksum rest

/-- The checksum of someone who reads documents one after the other. -/
def advance (previous : Option C) (documents : List D) : Option C :=
  documents.foldl (fun last document => some (hash document last)) previous

instance decidableChained [DecidableEq C] :
    (previous : Option C) → (rows : List (D × Option C)) → Decidable (Chained hash previous rows)
  | _, [] => isTrue trivial
  | _, (_, none) :: rest => decidableChained none rest
  | previous, (document, some checksum) :: rest =>
    have := decidableChained (some checksum) rest
    inferInstanceAs (Decidable (hash document previous = checksum ∧ _))

theorem tip_append (previous : Option C) (front rows : List (D × Option C)) :
    tip previous (front ++ rows) = tip (tip previous front) rows := by
  induction front generalizing previous with
  | nil => rfl
  | cons row rest ih => exact ih row.2

variable {previous : Option C} {rows : List (D × Option C)}

theorem chained_append {front : List (D × Option C)} :
    Chained hash previous (front ++ rows) ↔
      Chained hash previous front ∧ Chained hash (tip previous front) rows := by
  induction front generalizing previous with
  | nil => simp [Chained, tip]
  | cons row rest ih =>
    obtain ⟨document, checksum⟩ := row
    cases checksum with
    | none => simp [Chained, tip, ih]
    | some checksum => simp [Chained, tip, ih, and_assoc]

/-- Where no row lacks a checksum, the chain ends where a reader of the documents does. -/
theorem tip_eq_advance (chained : Chained hash previous rows)
    (complete : ∀ row ∈ rows, row.2 ≠ none) :
    tip previous rows = advance hash previous (rows.map Prod.fst) := by
  induction rows generalizing previous with
  | nil => rfl
  | cons row rest ih =>
    obtain ⟨document, checksum⟩ := row
    cases checksum with
    | none => exact absurd rfl (complete _ mem_cons_self)
    | some checksum =>
      obtain ⟨rfl, later⟩ := chained
      exact ih later fun row member => complete row (mem_cons_of_mem _ member)

/-- Under a hash without collisions the checksums of a complete chain determine its
documents. -/
theorem documents_determined {other : Option C} {others : List (D × Option C)}
    (injective : ∀ document last document' last',
      hash document last = hash document' last' → document = document' ∧ last = last')
    (chained : Chained hash previous rows) (chained' : Chained hash other others)
    (complete : ∀ row ∈ rows, row.2 ≠ none) (same : rows.map Prod.snd = others.map Prod.snd) :
    rows.map Prod.fst = others.map Prod.fst := by
  induction rows generalizing previous other others with
  | nil => simpa using same
  | cons row rest ih =>
    obtain ⟨document, checksum⟩ := row
    cases others with
    | nil => simp at same
    | cons row' rest' =>
      obtain ⟨document', checksum'⟩ := row'
      simp only [map_cons, cons.injEq] at same ⊢
      obtain ⟨rfl, same⟩ := same
      cases checksum with
      | none => exact absurd rfl (complete _ mem_cons_self)
      | some checksum =>
        obtain ⟨first, later⟩ := chained
        obtain ⟨first', later'⟩ := chained'
        refine ⟨(injective _ _ _ _ (first.trans first'.symm)).1, ih later later' ?_ same⟩
        exact fun row member => complete row (mem_cons_of_mem _ member)

/-- What becomes of one event of a writer: the document it has in mind, the document of the
row that it wrote at once and that stays, if there is one, whether it then remembers the new
checksum, and the document that is read from the row in the end. -/
structure Write (D : Type) where
  document : D
  kept : Option D
  advanced : Bool
  read : D

/-- The rows of a writer's events in the end: those that were kept, and those that were
filled in. The writer and the second pass each follow their own chain. -/
def settle : Option C → Option C → List (Write D) → List (D × Option C)
  | _, _, [] => []
  | writer, filler, write :: rest =>
    (write.read, some (write.kept.elim (hash write.document filler) fun kept => hash kept writer)) ::
      settle (if write.advanced then some (hash write.document writer) else writer)
        (some (hash write.document filler)) rest

end

/-- A writer that remembers the right checksum, or that has lost it, writes only rows that
fit. One that has lost it keeps no row, and a row with another document than the writer has
in mind is its last. -/
def Steady : Bool → List (Write D) → Prop
  | _, [] => True
  | true, write :: rest =>
    write.read = write.kept.getD write.document ∧
      (rest ≠ [] → write.kept.getD write.document = write.document ∧ Steady write.advanced rest)
  | false, write :: rest =>
    write.kept = none ∧ write.read = write.document ∧ Steady false rest

variable {hash : D → Option C → C} {writes : List (Write D)} {previous : Option Nat}
  {rows : List (D × Option Nat)}

/-- A writer that has lost track keeps no row, and every row is filled in. -/
theorem chained_of_lost (writer filler : Option C) (steady : Steady false writes) :
    Chained hash filler (settle hash writer filler writes) := by
  induction writes generalizing writer filler with
  | nil => trivial
  | cons write rest ih =>
    obtain ⟨none, read, later⟩ := steady
    simp only [settle, none, elim_none, Chained, read, true_and]
    exact ih _ _ later

theorem chained_of_steady (last : Option C) (steady : Steady true writes) :
    Chained hash last (settle hash last last writes) := by
  induction writes generalizing last with
  | nil => trivial
  | cons write rest ih =>
    obtain ⟨read, later⟩ := steady
    have written : write.kept.elim (hash write.document last) (fun kept => hash kept last) =
        hash (write.kept.getD write.document) last := by
      cases write.kept <;> rfl
    simp only [settle, Chained, written, read, true_and]
    by_cases done : rest = []
    · subst done
      trivial
    · obtain ⟨same, steady⟩ := later done
      rw [same]
      cases remembered : write.advanced with
      | true =>
        rw [remembered] at steady
        exact ih _ steady
      | false =>
        rw [remembered] at steady
        exact chained_of_lost _ _ steady

/-- The hash that writes everything down: the document, and then the previous checksum. -/
def spell (document : D) : Option (List (Option D)) → List (Option D)
  | none => [some document]
  | some last => some document :: none :: last

theorem spell_injective (document : D) (last : Option (List (Option D))) (document' : D)
    (last' : Option (List (Option D))) (same : spell document last = spell document' last') :
    document = document' ∧ last = last' := by
  cases last <;> cases last' <;> simp_all [spell]

/-- How much a checksum has written down. -/
def depth (last : Option (List (Option D))) : Nat := last.elim 0 List.length

theorem depth_spell (document : D) (last : Option (List (Option D))) :
    depth last < depth (some (spell document last)) := by
  cases last with
  | none => simp [depth, spell]
  | some last =>
    simp only [depth, spell, elim_some, length_cons]
    omega

theorem ne_spell (document : D) (last : Option (List (Option D))) :
    last ≠ some (spell document last) := by
  intro same
  have deeper := depth_spell document last
  rw [← same] at deeper
  exact Nat.lt_irrefl _ deeper

/-- A writer that has lost track never catches up: what it remembers is shorter. -/
theorem lost_of_chained {writer filler : Option (List (Option D))}
    (shorter : depth writer < depth filler)
    (chained : Chained spell filler (settle spell writer filler writes)) : Steady false writes := by
  induction writes generalizing writer filler with
  | nil => trivial
  | cons write rest ih =>
    obtain ⟨first, later⟩ := chained
    cases kept : write.kept with
    | some document =>
      rw [kept, elim_some] at first
      obtain ⟨_, same⟩ := spell_injective _ _ _ _ first
      exact absurd shorter (same ▸ Nat.lt_irrefl _)
    | none =>
      rw [kept, elim_none] at first later
      obtain ⟨read, _⟩ := spell_injective _ _ _ _ first
      refine ⟨kept, read, ih ?_ later⟩
      have deeper := depth_spell write.document filler
      split
      · cases writer <;> cases filler <;> simp_all [depth, spell]
      · omega

theorem steady_of_chained {last : Option (List (Option D))}
    (chained : Chained spell last (settle spell last last writes)) : Steady true writes := by
  induction writes generalizing last with
  | nil => trivial
  | cons write rest ih =>
    obtain ⟨first, later⟩ := chained
    have written : write.kept.elim (spell write.document last) (fun kept => spell kept last) =
        spell (write.kept.getD write.document) last := by
      cases write.kept <;> rfl
    rw [written] at first later
    refine ⟨(spell_injective _ _ _ _ first).1, fun more => ?_⟩
    obtain ⟨next, rest, rfl⟩ := exists_cons_of_ne_nil more
    have same : write.kept.getD write.document = write.document := by
      -- The next row continues the row that was kept, the document in mind, or nothing new.
      obtain ⟨second, _⟩ := later
      cases kept : next.kept with
      | none =>
        rw [kept, elim_none] at second
        obtain ⟨_, continued⟩ := spell_injective _ _ _ _ second
        exact (spell_injective _ _ _ _ (some.inj continued)).1
      | some document =>
        rw [kept, elim_some] at second
        obtain ⟨_, continued⟩ := spell_injective _ _ _ _ second
        split at continued
        · exact (spell_injective _ _ _ _ (some.inj continued)).1
        · exact absurd continued.symm (ne_spell _ last)
    refine ⟨same, ?_⟩
    rw [same] at later
    cases remembered : write.advanced with
    | true =>
      rw [remembered] at later
      exact ih later
    | false =>
      rw [remembered] at later
      exact lost_of_chained (depth_spell _ last) later

/-- A reader who ends where the chain does has read the documents of the chain, and no row of
it lacks a checksum. -/
theorem complete_of_tip_eq_advance {rows : List (D × Option (List (Option D)))} {documents : List D}
    (chained : Chained spell none rows) (counted : rows.length = documents.length)
    (same : tip none rows = advance spell none documents) :
    (∀ row ∈ rows, row.2 ≠ none) ∧ rows.map Prod.fst = documents := by
  -- The last row and the last document are compared, and with them what they continue.
  induction rows using reverseRecOn generalizing documents with
  | nil => simpa [eq_comm] using counted
  | append_singleton front row ih =>
    obtain ⟨document, checksum⟩ := row
    rcases eq_nil_or_concat documents with rfl | ⟨read, last, rfl⟩
    · simp at counted
    rw [concat_eq_append] at counted same ⊢
    rw [tip_append, advance, foldl_append] at same
    obtain ⟨earlier, here⟩ := (chained_append spell).mp chained
    subst same
    obtain ⟨rfl, continued⟩ := spell_injective _ _ _ _ here.1
    obtain ⟨complete, rest⟩ := ih earlier (by simpa using counted) continued
    exact ⟨forall_mem_append.mpr ⟨complete, by simp⟩, by simp [rest]⟩

/-- The hash that only counts how long the chain is. -/
def tally (_ : D) (last : Option Nat) : Nat := last.getD 0 + 1

theorem tip_tally_le (chained : Chained tally previous rows) :
    (tip previous rows).getD 0 ≤ previous.getD 0 + rows.length := by
  induction rows generalizing previous with
  | nil => simp [tip]
  | cons row rest ih =>
    obtain ⟨document, checksum⟩ := row
    cases checksum with
    | none =>
      have later := ih chained
      simp only [tip, getD_none, length_cons] at later ⊢
      omega
    | some checksum =>
      obtain ⟨rfl, later⟩ := chained
      have later := ih later
      simp only [tip, tally, getD_some, length_cons] at later ⊢
      omega

/-- A chain that was interrupted is shorter than its rows. -/
theorem tip_tally_lt (chained : Chained tally previous rows) {row : D × Option Nat}
    (member : row ∈ rows) (interrupted : row.2 = none) :
    (tip previous rows).getD 0 < rows.length := by
  obtain ⟨front, rest, rfl⟩ := append_of_mem member
  obtain ⟨document, checksum⟩ := row
  cases interrupted
  have later := ((chained_append tally).mp chained).2
  have bounded := @tip_tally_le _ none _ later
  rw [tip_append, length_append, length_cons]
  simp only [tip, getD_none] at bounded ⊢
  omega

theorem advance_tally (previous : Option Nat) (documents : List D) :
    (advance tally previous documents).getD 0 = previous.getD 0 + documents.length := by
  induction documents generalizing previous with
  | nil => simp [advance]
  | cons document rest ih =>
    have later := ih (some (tally document previous))
    simp only [advance, foldl_cons, length_cons] at later ⊢
    rw [later]
    simp only [tally, getD_some]
    omega

end Durable
