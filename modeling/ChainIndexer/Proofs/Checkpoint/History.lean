import ChainIndexer.Proofs.Refusal

/-!
The cursors that were committed to one file, over any history of updates. An update compares the new
cursor only with the one it reads from the file; that no later cursor is a step back from any earlier
one follows because being no step back is transitive (`Follows.trans`) and the file always holds the
last cursor that was committed. Updates that fail may stand anywhere between the others, and so may
new openings of the file, as a checkpoint is nothing but the name of its file.
-/

namespace ChainIndexer

namespace Cursor

variable {a b c : Cursor}

/-- The new cursor is no step back: anything may follow the start, a height a height that is not
greater, and a signature a signature. -/
def Follows (new previous : Cursor) : Prop :=
  match previous, new with
  | .start, _ => True
  | .block h _, .block k _ => h.toInt ≤ k.toInt
  | .transaction .., .transaction .. => True
  | _, _ => False

theorem follows_iff : b.Follows a ↔ a.regresses b = false := by
  cases a <;> cases b <;> simp [Follows, regresses]

theorem Follows.trans (hab : b.Follows a) (hbc : c.Follows b) : c.Follows a := by
  cases a with
  | start => trivial
  | block h hh =>
    cases b with
    | block k hk =>
      cases c with
      | block l hl =>
        have hle : h.toInt ≤ k.toInt := hab
        exact Int.le_trans hle hbc
      | _ => exact hbc
    | _ => exact hab.elim
  | transaction s hs =>
    cases b with
    | transaction t ht =>
      cases c with
      | transaction => trivial
      | _ => exact hbc.elim
    | _ => exact hab.elim

/-- A cursor is no step back from the one that it is read as. -/
theorem settled_follows (a : Cursor) : a.settled.Follows a := by
  cases a with
  | start => trivial
  | block h hh => exact Int.le_refl h.toInt
  | transaction s hs => trivial

end Cursor

/-- What is done with the file of a cursor: it is updated, or opened anew. -/
inductive Use where
  | update (new : Cursor)
  | reopen

/-- A file of a cursor in use, and the cursors that were committed to it, in order. -/
structure History where
  checkpoint : Checkpoint
  world : World
  commits : List Cursor := []

namespace History

open Act

def next (sc : Scenario) (h : History) : Use → History
  | .update new =>
    match Act.exec (h.checkpoint.update sc.disk new) h.world with
    | (.ok (), w) => { h with world := w, commits := h.commits ++ [new] }
    | (.error _, w) => { h with world := w }
  | .reopen => { h with checkpoint := ⟨h.checkpoint.path⟩ }

/-- A history that begins among some files, after a number of uses. -/
def run (sc : Scenario) (c : Checkpoint) (files : Files) (uses : List Use) : History :=
  uses.foldl (next sc) { checkpoint := c, world := { files } }

/-- The invariant of a history: each commit follows all the earlier ones, and so does the cursor that
is stored. -/
structure Ordered (c : Checkpoint) (h : History) : Prop where
  checkpoint : h.checkpoint = c
  commits : h.commits.Pairwise fun earlier later => later.Follows earlier
  stored : ∀ earlier ∈ h.commits, ∀ cursor, c.stored h.world.files = .ok cursor →
    cursor.Follows earlier

variable {sc : Scenario} {c : Checkpoint} {h : History}

theorem ordered_update (hordered : Ordered c h) (new : Cursor) :
    Ordered c (h.next sc (.update new)) := by
  obtain ⟨rfl, hcommits, hstored⟩ := hordered
  rcases hupdate : Act.exec (h.checkpoint.update sc.disk new) h.world with ⟨r, w⟩
  cases r with
  | error e =>
    have hnext : h.next sc (.update new) = { h with world := w } := by simp [next, hupdate]
    rw [hnext]
    have hsame := Checkpoint.stored_congr (Checkpoint.update_error hupdate).lookup
    refine ⟨rfl, hcommits, fun earlier hmem cursor hcursor => ?_⟩
    exact hstored earlier hmem cursor (hsame.symm.trans hcursor)
  | ok _ =>
    have hnext : h.next sc (.update new) =
        { h with world := w, commits := h.commits ++ [new] } := by simp [next, hupdate]
    rw [hnext]
    obtain ⟨previous, _, _, hprevious, hregresses, -⟩ := Checkpoint.update_text hupdate
    obtain ⟨hnow, -⟩ := Checkpoint.update_ok hupdate
    have hnew : ∀ earlier ∈ h.commits, new.Follows earlier := by
      intro earlier hmem
      have hlast : new.Follows previous := Cursor.follows_iff.mpr hregresses
      exact (hstored earlier hmem previous hprevious).trans hlast
    refine ⟨rfl, ?_, fun earlier hmem cursor hcursor => ?_⟩
    · refine List.pairwise_append.mpr ⟨hcommits, List.pairwise_singleton _ _, ?_⟩
      intro earlier hmem later hlater
      rw [List.mem_singleton.mp hlater]
      exact hnew earlier hmem
    · obtain rfl : new.settled = cursor := Except.ok.inj (hnow.symm.trans hcursor)
      rcases List.mem_append.mp hmem with hmem | hmem
      · exact (hnew earlier hmem).trans new.settled_follows
      · rw [List.mem_singleton.mp hmem]
        exact new.settled_follows

theorem ordered_run (sc : Scenario) (c : Checkpoint) (files : Files) (uses : List Use) :
    Ordered c (run sc c files uses) := by
  have later : ∀ h, Ordered c h → Ordered c (uses.foldl (next sc) h) := by
    induction uses with
    | nil => exact fun _ hordered => hordered
    | cons u rest ih =>
      intro h hordered
      apply ih
      cases u with
      | update new => exact ordered_update hordered new
      | reopen => exact ⟨hordered.checkpoint, hordered.commits, hordered.stored⟩
  exact later _ ⟨rfl, List.Pairwise.nil, by simp⟩

/-- Of any two cursors that were committed to a file the later one is no step back from the earlier
one. An update refuses a cursor as a step back exactly if it is one from the cursor that is read from
the file at that time. -/
theorem commits_never_move_back (sc : Scenario) (c : Checkpoint) (files : Files)
    (uses : List Use) :
    (run sc c files uses).commits.Pairwise (fun earlier later =>
        earlier.regresses later = false ∧ later.Follows earlier) ∧
      ∀ (w : World) (new : Cursor),
        (∃ p q, (Act.exec (c.update sc.disk new) w).1 = .error (.regression p q)) ↔
          ∃ previous, (Act.exec (c.get sc.disk) w).1 = .ok previous ∧
            previous.regresses new = true := by
  constructor
  · exact (ordered_run sc c files uses).commits.imp fun hfollows =>
      ⟨Cursor.follows_iff.mp hfollows, hfollows⟩
  intro w new
  constructor
  · rintro ⟨p, q, hresult⟩
    rcases hupdate : Act.exec (c.update sc.disk new) w with ⟨r, w'⟩
    rw [hupdate] at hresult
    obtain rfl : r = .error (.regression p q) := hresult
    rcases Checkpoint.exec_update_guard hupdate with hplain | ⟨previous, hget, hregresses, -⟩
    · cases hplain
    · exact ⟨previous, by rw [hget], hregresses⟩
  · rintro ⟨previous, hread, hregresses⟩
    rcases hget : Act.exec (c.get sc.disk) w with ⟨r, w'⟩
    rw [hget] at hread
    obtain rfl : r = .ok previous := hread
    have hrefused : Candidate.regresses previous new = true := hregresses
    refine ⟨previous, new, ?_⟩
    rw [Checkpoint.exec_update, hget]
    simp [hrefused]

end History

end ChainIndexer
