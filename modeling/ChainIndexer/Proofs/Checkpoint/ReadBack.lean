import ChainIndexer.Proofs.Checkpoint.Atomicity
import ChainIndexer.Proofs.Checkpoint.History

/-!
A cursor that was committed is read back. Once an update has succeeded, the file holds the text of
the new cursor, and reading it gives a cursor that equals the new one, whether by the same
checkpoint or by another one of that name. A further update with the same cursor writes the same
text (`update_reads_back`); that it succeeds is a fact about files: an update changes where no name
leads (`World.Leads`), so the names that took a file before take one again (`update_calm`).
-/

namespace ChainIndexer

/-- Equal cursors: both the start, heights that are equal as numbers, or the same signature. -/
def Cursor.Equal : Cursor → Cursor → Prop
  | .start, .start => True
  | .block h _, .block k _ => h.toInt = k.toInt
  | .transaction s _, .transaction t _ => s = t
  | _, _ => False

theorem Cursor.settled_equal (c : Cursor) : c.settled.Equal c := by
  cases c <;> simp [Cursor.settled, Cursor.Equal, Whole.toInt]

theorem Cursor.follows_settled (c : Cursor) : c.Follows c.settled := by
  cases c with
  | start => trivial
  | block h nonneg => exact Int.le_refl h.toInt
  | transaction s nonempty => trivial

/-- A later world in which every name leads where it has led. -/
structure World.Leads (w w' : World) : Prop where
  clock : w.clock ≤ w'.clock
  directories : Files.SameDirectories w.files w'.files

instance : Act.Lasting World.Leads where
  refl _ := ⟨Nat.le_refl _, fun _ => Iff.rfl⟩
  trans h h' := ⟨Nat.le_trans h.clock h'.clock, h.directories.trans h'.directories⟩

/-- No operation on a file breaks down from some moment on. -/
def Scenario.CalmFrom (sc : Scenario) (t : Nat) : Prop :=
  ∀ later, t ≤ later → sc.breakdown later = none

theorem Scenario.CalmFrom.mono {sc : Scenario} {t t' : Nat} (h : sc.CalmFrom t) (hle : t ≤ t') :
    sc.CalmFrom t' :=
  fun later hlater => h later (Nat.le_trans hle hlater)

namespace Checkpoint

open Act

variable {sc : Scenario} {c : Checkpoint} {w w' : World}

/-! ### Names lead where they led -/

theorem operate_leads {α : Type} {name : String} {x : Act (StateM World) α}
    {torn : Nat → Files → Files} (hx : Keeps World.Leads x)
    (htorn : ∀ written fs, Files.SameDirectories fs (torn written fs)) :
    Keeps World.Leads (sc.operate name x torn) := by
  intro w
  rw [exec_operate]
  split
  · exact ⟨Nat.le_succ _, htorn _ _⟩
  · have hafter : World.Leads w (w.after []) := ⟨Nat.le_succ _, fun _ => Iff.rfl⟩
    exact Lasting.trans hafter (hx _)

theorem change_leads {name : String} {f : Files → Except Fault Files}
    (hf : ∀ fs fs', f fs = .ok fs' → Files.SameDirectories fs fs') :
    Keeps World.Leads (World.place.change name f) := by
  intro w
  rw [exec_change]
  split
  · rename_i next hnext
    exact ⟨Nat.le_refl _, hf _ _ hnext⟩
  · exact Lasting.refl w

theorem sameDirectories_append {fs fs' : Files} {name : String} {more : Bytes}
    (h : fs.append name more = .ok fs') : Files.SameDirectories fs fs' := by
  obtain ⟨_, -, hwrite⟩ := append_ok h
  exact Files.sameDirectories_write hwrite

theorem get_leads (sc : Scenario) (c : Checkpoint) : Keeps World.Leads (c.get sc.disk) := by
  unfold get
  refine Keeps.bind (fun w => Lasting.refl w) fun there => ?_
  refine Keeps.ite (Keeps.rewording (Keeps.bind ?_ fun _ => Keeps.lift _) _ _) (Keeps.pure _)
  rw [Scenario.disk_read]
  exact operate_leads (fun w => Lasting.refl w) fun _ _ _ => Iff.rfl

theorem create_leads (sc : Scenario) (name : String) :
    Keeps World.Leads (sc.disk.create name) := by
  rw [Scenario.disk_create]
  refine operate_leads (change_leads fun fs fs' h => ?_) fun _ _ _ => Iff.rfl
  exact Files.sameDirectories_write h

theorem append_leads (sc : Scenario) (name : String) (more : Bytes) :
    Keeps World.Leads (sc.disk.append name more) := by
  rw [Scenario.disk_append]
  refine operate_leads (change_leads fun fs fs' h => sameDirectories_append h) fun written fs => ?_
  unfold Scenario.tornAppend
  split
  · rename_i fs' h
    exact sameDirectories_append h
  · exact fun _ => Iff.rfl

theorem appendAll_leads (sc : Scenario) (name : String) (ps : List (Except Fault String)) :
    Keeps World.Leads (appendAll sc.disk name ps) := by
  induction ps with
  | nil => exact Keeps.pure _
  | cons p rest ih =>
    cases p with
    | ok s => exact Keeps.bind (append_leads sc name _) fun _ => ih
    | error e => exact Keeps.throw _

theorem writeScratch_leads (sc : Scenario) (c : Checkpoint) (new : Candidate) :
    Keeps World.Leads (c.writeScratch sc.disk new) :=
  Keeps.bind (create_leads sc _) fun _ => Keeps.bind (Keeps.lift _) fun _ => appendAll_leads sc _ _

theorem replace_leads (sc : Scenario) (source target : String) :
    Keeps World.Leads (sc.disk.replace source target) := by
  rw [Scenario.disk_replace]
  refine operate_leads (Keeps.bind ?_ fun _ w => ?_) fun _ _ _ => Iff.rfl
  · exact change_leads fun fs fs' h => Files.sameDirectories_replace h
  · rw [exec_tellStored]
    split
    · exact ⟨Nat.le_refl _, fun _ => Iff.rfl⟩
    · exact Lasting.refl w

/-! ### Updates while nothing breaks down -/

theorem operate_calm {α : Type} (hcalm : sc.CalmFrom w.clock) (name : String)
    (x : Act (StateM World) α) (torn : Nat → Files → Files) :
    Act.exec (sc.operate name x torn) w = Act.exec x (w.after []) := by
  rw [exec_operate, hcalm _ (Nat.le_refl _)]

theorem create_calm (hcalm : sc.CalmFrom w.clock) {name : String} (h : w.files.Takes name) :
    ∃ w', Act.exec (sc.disk.create name) w = (.ok (), w') ∧ w'.files.read name = .ok [] := by
  obtain ⟨fs, hwrite⟩ := h.write []
  refine ⟨{ w.after [] with files := fs }, ?_, read_write hwrite⟩
  rw [Scenario.disk_create, operate_calm hcalm, exec_change, World.files_after, hwrite]

theorem append_calm (hcalm : sc.CalmFrom w.clock) {name : String} {content : Bytes}
    (h : w.files.read name = .ok content) (more : Bytes) :
    ∃ w', Act.exec (sc.disk.append name more) w = (.ok (), w') ∧
      w'.files.read name = .ok (content ++ more) := by
  obtain ⟨p, hlookup⟩ := Files.lookup_of_read h
  obtain ⟨fs, hwrite⟩ := (Files.takes_of_lookup hlookup).write (content ++ more)
  have happend : w.files.append name more = .ok fs := by
    rw [Files.append, h]
    exact hwrite
  refine ⟨{ w.after [] with files := fs }, ?_, read_write hwrite⟩
  rw [Scenario.disk_append, operate_calm hcalm, exec_change, World.files_after, happend]

theorem appendAll_calm (hcalm : sc.CalmFrom w.clock) {name : String} {content : Bytes}
    (h : w.files.read name = .ok content) {ps : List (Except Fault String)} {s : String}
    (hps : Json.together ps = .ok s) :
    ∃ w', Act.exec (appendAll sc.disk name ps) w = (.ok (), w') := by
  induction ps generalizing w content s with
  | nil => exact ⟨w, exec_pure _ _⟩
  | cons p rest ih =>
    cases p with
    | error e => cases hps
    | ok t =>
      obtain ⟨more, hmore, -⟩ := Json.together_cons hps
      obtain ⟨w₁, happend, hread⟩ := append_calm hcalm h (Text.encode t)
      have hlater := ((append_leads sc name _).of_exec happend).clock
      obtain ⟨w₂, hrest⟩ := ih (hcalm.mono hlater) hread hmore
      exact ⟨w₂, by rw [appendAll, exec_bind_of_ok happend, hrest]⟩

theorem writeScratch_calm (hcalm : sc.CalmFrom w.clock) (hscratch : w.files.Takes c.scratch)
    {new : Cursor} (hnew : new.isWritable = true) :
    ∃ w', Act.exec (c.writeScratch sc.disk new) w = (.ok (), w') := by
  obtain ⟨w₁, hcreate, hread⟩ := create_calm hcalm hscratch
  have hlater := ((create_leads sc c.scratch).of_exec hcreate).clock
  obtain ⟨text, htext, -⟩ := Json.exists_write (tellable_document hnew 0)
  obtain ⟨w₂, happend⟩ := appendAll_calm (hcalm.mono hlater) hread htext
  refine ⟨w₂, ?_⟩
  rw [writeScratch, exec_bind_of_ok hcreate]
  exact happend

theorem replace_calm (hcalm : sc.CalmFrom w.clock) (hpath : w.files.Takes c.path) {content : Bytes}
    (h : w.files.read c.scratch = .ok content) :
    ∃ w', Act.exec (sc.disk.replace c.scratch c.path) w = (.ok (), w') := by
  obtain ⟨fs, hreplace⟩ := hpath.replace h
  have hchange := exec_change c.scratch (·.replace c.scratch c.path) (w.after [])
  rw [World.files_after, hreplace] at hchange
  rw [Scenario.disk_replace, operate_calm hcalm, exec_bind_of_ok hchange, exec_tellStored]
  split
  · exact ⟨_, rfl⟩
  · exact ⟨_, rfl⟩

theorem commit_calm (hcalm : sc.CalmFrom w.clock) (hscratch : w.files.Takes c.scratch)
    (hpath : w.files.Takes c.path) {new : Cursor} (hnew : new.isWritable = true) :
    ∃ w', Act.exec (c.commit sc.disk new) w = (.ok (), w') := by
  obtain ⟨w₁, hwrite⟩ := writeScratch_calm hcalm hscratch hnew
  obtain ⟨text, -, hread⟩ := writeScratch_ok hwrite
  have hleads := (writeScratch_leads sc c new).of_exec hwrite
  obtain ⟨w₂, hreplace⟩ :=
    replace_calm (hcalm.mono hleads.clock) (hpath.congr hleads.directories) hread
  refine ⟨w₂, ?_⟩
  rw [commit, exec_rewording, exec_bind_of_ok hwrite, hreplace]
  rfl

/-- While nothing breaks down, a cursor that can be written is committed to any file that holds a
cursor from which it is no step back, or holds none, if the two names take a file. -/
theorem update_calm (hcalm : sc.CalmFrom w.clock) (hscratch : w.files.Takes c.scratch)
    (hpath : w.files.Takes c.path) {previous new : Cursor}
    (hstored : c.stored w.files = .ok previous) (hfollows : new.Follows previous)
    (hnew : new.isWritable = true) :
    ∃ w', Act.exec (c.update sc.disk new) w = (.ok (), w') := by
  have hresult := get_result sc c w
  rw [hcalm _ (Nat.le_refl _), hstored] at hresult
  rcases hget : Act.exec (c.get sc.disk) w with ⟨r, w₁⟩
  obtain rfl : r = .ok previous := by
    rw [hget] at hresult
    simpa using hresult
  have hleads := (get_leads sc c).of_exec hget
  obtain ⟨w₂, hcommit⟩ := commit_calm (hcalm.mono hleads.clock) (hscratch.congr hleads.directories)
    (hpath.congr hleads.directories) hnew
  refine ⟨w₂, ?_⟩
  have hregresses : Candidate.regresses previous new = false := Cursor.follows_iff.mp hfollows
  rw [exec_update, hget]
  dsimp only
  rw [hregresses]
  exact hcommit

/-! ### What was committed -/

/-- After an update that succeeded the two names of the checkpoint take a file. -/
theorem takes_of_update {new : Candidate}
    (h : Act.exec (c.update sc.disk new) w = (.ok (), w')) :
    w'.files.Takes c.scratch ∧ w'.files.Takes c.path := by
  obtain ⟨_, text, p, -, -, -, hlookup, -⟩ := update_text h
  refine ⟨?_, Files.takes_of_lookup hlookup⟩
  rw [exec_update] at h
  rcases hget : Act.exec (c.get sc.disk) w with ⟨r, w₁⟩
  rw [hget] at h
  cases r with
  | error e => cases h
  | ok previous =>
    dsimp only at h
    split at h
    · cases h
    · obtain ⟨⟨⟩, w₂, hwrite, hreplace⟩ := exec_bind_ok (exec_rewording_ok h)
      obtain ⟨text', -, hread⟩ := writeScratch_ok hwrite
      obtain ⟨q, hscratch⟩ := Files.lookup_of_read hread
      have hleads := (replace_leads sc c.scratch c.path).of_exec hreplace
      exact (Files.takes_of_lookup hscratch).congr hleads.directories

/-- After an update that succeeded, the cursor that a checkpoint of this name reads equals the new
one, and a further update with the new cursor succeeds and leaves the text of the file. -/
theorem update_reads_back (sc : Scenario) (c : Checkpoint) (new : Cursor) {w w' : World}
    (h : Act.exec (c.update sc.disk new) w = (.ok (), w')) (hcalm : sc.CalmFrom w'.clock) :
    ∀ again : Checkpoint, again.path = c.path →
      (∃ back, (Act.exec (again.get sc.disk) w').1 = .ok back ∧ back.Equal new) ∧
      ∃ w'', Act.exec (again.update sc.disk new) w' = (.ok (), w'') ∧
        w''.files.read c.path = w'.files.read c.path := by
  rintro ⟨path⟩ rfl
  obtain ⟨_, text, p, -, -, htext, hlookup, -⟩ := update_text h
  obtain ⟨hstored, -⟩ := update_ok h
  obtain ⟨hscratch, hpath⟩ := takes_of_update h
  have hnew : new.isWritable = true := writable_of_write (textOf_cursor htext)
  constructor
  · have hresult := get_result sc c w'
    rw [hcalm _ (Nat.le_refl _), hstored] at hresult
    exact ⟨new.settled, by simpa using hresult, new.settled_equal⟩
  · obtain ⟨w'', hagain⟩ :=
      update_calm hcalm hscratch hpath hstored new.follows_settled hnew
    refine ⟨w'', hagain, ?_⟩
    obtain ⟨_, text', p', -, -, htext', hlookup', -⟩ := update_text hagain
    obtain rfl : text' = text := Except.ok.inj (htext'.symm.trans htext)
    simp [Files.read, hlookup, hlookup']

/-- A file that is there and holds no cursor. -/
def emptyObject : Files :=
  ⟨[(["cursor"], .file (Text.encode "\x7b\x7d"))]⟩

theorem odd_signature_reads_back :
    let c : Checkpoint := ⟨"cursor"⟩
    let new : Cursor := .transaction "a\"\\\n😀" (by decide)
    ∃ w', Act.exec (c.update calmScenario.disk new) { files := emptyObject } = (.ok (), w') ∧
      calmScenario.CalmFrom w'.clock ∧ ∀ again : Checkpoint, again.path = c.path →
        (∃ back, (Act.exec (again.get calmScenario.disk) w').1 = .ok back ∧ back.Equal new) ∧
        ∃ w'', Act.exec (again.update calmScenario.disk new) w' = (.ok (), w'') ∧
          w''.files.read c.path = w'.files.read c.path := by
  intro c new
  have hupdate : Act.exec (c.update calmScenario.disk new) { files := emptyObject } = (.ok (), _) :=
    Prod.ext (ok_of_toOption (by decide +kernel)) rfl
  have hcalm : ∀ t, calmScenario.CalmFrom t := fun _ _ _ => rfl
  exact ⟨_, hupdate, hcalm _, update_reads_back calmScenario c new hupdate (hcalm _)⟩

end Checkpoint

end ChainIndexer
