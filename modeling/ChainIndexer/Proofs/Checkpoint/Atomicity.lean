import ChainIndexer.Proofs.Checkpoint

/-!
An update of the cursor is atomic. `Scenario.notedDisk` notes the files after every operation, and
while bytes are being appended after each of them, so the notes are all that the end of the process
in the middle of an update can leave behind. Each noted state has the file of the cursor as it was
before the update or with the whole text of the new cursor (`update_atomic`), and only the last
operation makes the difference. A replacement counts as one operation; that the system makes it in
one go is assumed.
-/

namespace ChainIndexer

/-- The states of the files that were noted, in order. -/
abbrev Moments := List Files

namespace Scenario

open Act

/-- Notes the states that an operation takes the files through, and the one that it leaves. -/
def noting {α : Type} (between : Files → List Files) (x : Act (StateM World) α) :
    Act (StateT Moments (StateM World)) α :=
  ExceptT.mk fun moments w =>
    let r := Act.exec x w
    ((r.1, moments ++ (between w.files ++ [r.2.files])), r.2)

/-- The states in which an append that is under way has written only some of the bytes. -/
def tornStates (name : String) (more : Bytes) (fs : Files) : List Files :=
  (List.range more.length).map fun written => tornAppend name more written fs

/-- The files of a scenario, noted. -/
def notedDisk (sc : Scenario) : Disk (StateT Moments (StateM World)) where
  isThere name := StateT.lift (sc.disk.isThere name)
  read name := noting (fun _ => []) (sc.disk.read name)
  create name := noting (fun _ => []) (sc.disk.create name)
  append name more := noting (tornStates name more) (sc.disk.append name more)
  replace source target := noting (fun _ => []) (sc.disk.replace source target)
  makeDirectory name := noting (fun _ => []) (sc.disk.makeDirectory name)

theorem exec_noting {α : Type} (between : Files → List Files) (x : Act (StateM World) α)
    (moments : Moments) (w : World) :
    Act.exec (noting between x) (moments, w) =
      ((Act.exec x w).1, moments ++ (between w.files ++ [(Act.exec x w).2.files]),
        (Act.exec x w).2) :=
  rfl

end Scenario

open Act

/-- With notes an activity does what another one does without them. That one leaves a name alone,
and so does every state that is noted. -/
def Traces {α : Type} (name : String) (x : Act (StateT Moments (StateM World)) α)
    (y : Act (StateM World) α) : Prop :=
  ∀ moments w, World.Spares name w (Act.exec y w).2 ∧
    ∃ more, (∀ fs ∈ more, fs.lookup name = w.files.lookup name) ∧
      Act.exec x (moments, w) = ((Act.exec y w).1, moments ++ more, (Act.exec y w).2)

namespace Traces

variable {α β : Type} {name : String} {x : Act (StateT Moments (StateM World)) α}
  {y : Act (StateM World) α}

/-- An activity that does nothing to the world and leaves no notes. -/
theorem of_idle (hx : ∀ moments w, Act.exec x (moments, w) = ((Act.exec y w).1, moments, w))
    (hy : ∀ w, (Act.exec y w).2 = w) : Traces name x y := by
  intro moments w
  rw [hx, hy]
  exact ⟨Lasting.refl w, [], by simp, by rw [List.append_nil]⟩

theorem pure (a : α) : Traces name (pure a) (pure a) :=
  of_idle (fun _ _ => by rw [exec_pure, exec_pure]) fun _ => by rw [exec_pure]

theorem throw (e : Failure) : Traces name (throw e : Act _ α) (throw e) :=
  of_idle (fun _ _ => by rw [exec_throw, exec_throw]) fun _ => by rw [exec_throw]

theorem lift (r : Except Failure α) : Traces name (liftM r : Act _ α) (liftM r) :=
  of_idle (fun _ _ => by rw [exec_lift, exec_lift]) fun _ => by rw [exec_lift]

theorem bind {f : α → Act (StateT Moments (StateM World)) β} {g : α → Act (StateM World) β}
    (hx : Traces name x y) (hf : ∀ a, Traces name (f a) (g a)) :
    Traces name (x >>= f) (y >>= g) := by
  intro moments w
  obtain ⟨hspared, more, hmore, hexec⟩ := hx moments w
  rcases hy : Act.exec y w with ⟨r, w₁⟩
  rw [hy] at hspared hexec
  cases r with
  | error e =>
    rw [exec_bind_of_error hy, exec_bind_of_error hexec]
    exact ⟨hspared, more, hmore, rfl⟩
  | ok a =>
    obtain ⟨hspared', more', hmore', hexec'⟩ := hf a (moments ++ more) w₁
    rw [exec_bind_of_ok hy, exec_bind_of_ok hexec]
    refine ⟨Lasting.trans hspared hspared', more ++ more', ?_, by rw [hexec', List.append_assoc]⟩
    intro fs hfs
    rcases List.mem_append.mp hfs with hfs | hfs
    · exact hmore fs hfs
    · exact (hmore' fs hfs).trans hspared.lookup

theorem rewording (hx : Traces name x y) (caught : Kind → Bool) (wrap : Failure → Failure) :
    Traces name (x.rewording caught wrap) (y.rewording caught wrap) := by
  intro moments w
  obtain ⟨hspared, more, hmore, hexec⟩ := hx moments w
  rw [exec_rewording, exec_rewording, hexec]
  exact ⟨hspared, more, hmore, rfl⟩

/-- An operation that leaves a name alone, also as far as it has come at any time. -/
theorem noting {between : Files → List Files} (hy : Keeps (World.Spares name) y)
    (hbetween : ∀ fs, ∀ fs' ∈ between fs, fs'.lookup name = fs.lookup name) :
    Traces name (Scenario.noting between y) y := by
  intro moments w
  refine ⟨hy w, _, fun fs hfs => ?_, Scenario.exec_noting between y moments w⟩
  rcases List.mem_append.mp hfs with hfs | hfs
  · exact hbetween w.files fs hfs
  · rw [List.mem_singleton.mp hfs]
    exact (hy w).lookup

end Traces

namespace Checkpoint

variable {c : Checkpoint} {new : Candidate}

theorem lookup_tornStates {name : String} {more : Bytes} {fs fs' : Files}
    (h : fs' ∈ Scenario.tornStates (name ++ Files.ending) more fs) :
    fs'.lookup name = fs.lookup name := by
  obtain ⟨written, -, rfl⟩ := List.mem_map.mp h
  unfold Scenario.tornAppend
  split
  · rename_i fs' happend
    exact lookup_append_beside happend
  · rfl

theorem get_traces (sc : Scenario) (c : Checkpoint) :
    Traces c.path (c.get sc.notedDisk) (c.get sc.disk) := by
  unfold get
  refine Traces.bind (Traces.of_idle (fun _ _ => rfl) fun _ => rfl) fun there => ?_
  cases there with
  | false => exact Traces.pure _
  | true =>
    refine Traces.rewording ?_ _ _
    refine Traces.bind (Traces.noting (read_keeps sc c.path c.path) ?_) fun bs => Traces.lift _
    simp

theorem appendAll_traces (sc : Scenario) (c : Checkpoint) (ps : List (Except Fault String)) :
    Traces c.path (appendAll sc.notedDisk c.scratch ps) (appendAll sc.disk c.scratch ps) := by
  induction ps with
  | nil => exact Traces.pure _
  | cons p rest ih =>
    cases p with
    | ok s =>
      refine Traces.bind (Traces.noting (append_keeps sc c _) ?_) fun _ => ih
      exact fun fs fs' h => lookup_tornStates h
    | error e => exact Traces.throw _

theorem writeScratch_traces (sc : Scenario) (c : Checkpoint) (new : Candidate) :
    Traces c.path (c.writeScratch sc.notedDisk new) (c.writeScratch sc.disk new) := by
  refine Traces.bind (Traces.noting (create_keeps sc c) (by simp)) fun _ => ?_
  exact Traces.bind (Traces.lift _) fun v => appendAll_traces sc c _

/-- Some files hold the whole text of what was handed to a checkpoint as a cursor. -/
def Holds (c : Checkpoint) (new : Candidate) (fs : Files) : Prop :=
  ∃ text, textOf new = .ok text ∧ fs.read c.path = .ok (Text.encode text)

theorem holds_of_lookup {text : String} {p : Path} {fs : Files} (htext : textOf new = .ok text)
    (h : fs.lookup c.path = .ok (p, some (.file (Text.encode text)))) : c.Holds new fs :=
  ⟨text, htext, by simp [Files.read, h]⟩

/-- While a cursor is being committed the file is the old one or holds the new cursor. -/
theorem commit_moments (sc : Scenario) (c : Checkpoint) (new : Candidate) (moments : Moments)
    (w : World) :
    ∃ more, (∀ fs ∈ more, fs.lookup c.path = w.files.lookup c.path ∨ c.Holds new fs) ∧
      Act.exec (c.commit sc.notedDisk new) (moments, w) =
        ((Act.exec (c.commit sc.disk new) w).1, moments ++ more,
          (Act.exec (c.commit sc.disk new) w).2) := by
  obtain ⟨hspared, more, hmore, hexec⟩ := writeScratch_traces sc c new moments w
  unfold commit
  rw [exec_rewording, exec_rewording]
  rcases hwrite : Act.exec (c.writeScratch sc.disk new) w with ⟨r, w₁⟩
  rw [hwrite] at hspared hexec
  cases r with
  | error e =>
    rw [exec_bind_of_error hwrite, exec_bind_of_error hexec]
    exact ⟨more, fun fs hfs => Or.inl (hmore fs hfs), rfl⟩
  | ok _ =>
    have hlast := Scenario.exec_noting (fun _ => []) (sc.disk.replace c.scratch c.path)
      (moments ++ more) w₁
    rw [exec_bind_of_ok hwrite, exec_bind_of_ok hexec]
    refine ⟨more ++ [(Act.exec (sc.disk.replace c.scratch c.path) w₁).2.files], ?_, ?_⟩
    · intro fs hfs
      rcases List.mem_append.mp hfs with hfs | hfs
      · exact Or.inl (hmore fs hfs)
      rw [List.mem_singleton.mp hfs]
      obtain ⟨text, htext, hread⟩ := writeScratch_ok hwrite
      rcases exec_replace sc c w₁ with ⟨e, heq⟩ | ⟨fs', content, p, hread', hlookup, heq⟩
      · rw [heq]
        exact Or.inl hspared.lookup
      · rw [heq]
        obtain rfl : Text.encode text = content := Except.ok.inj (hread.symm.trans hread')
        exact Or.inr (holds_of_lookup htext hlookup)
    · rw [show sc.notedDisk.replace c.scratch c.path =
        Scenario.noting (fun _ => []) (sc.disk.replace c.scratch c.path) from rfl, hlast]
      simp

/-- While a cursor is being updated the file is the old one or holds the new cursor. -/
theorem update_moments (sc : Scenario) (c : Checkpoint) (new : Candidate) (w : World) :
    ∃ moments, (∀ fs ∈ moments, fs.lookup c.path = w.files.lookup c.path ∨ c.Holds new fs) ∧
      Act.exec (c.update sc.notedDisk new) ([], w) =
        ((Act.exec (c.update sc.disk new) w).1, moments, (Act.exec (c.update sc.disk new) w).2) := by
  obtain ⟨hspared, more, hmore, hexec⟩ := get_traces sc c [] w
  have kept : ∀ fs ∈ more, fs.lookup c.path = w.files.lookup c.path ∨ c.Holds new fs :=
    fun fs hfs => Or.inl (hmore fs hfs)
  rw [exec_update, exec_update, hexec]
  rcases hget : Act.exec (c.get sc.disk) w with ⟨r, w₁⟩
  rw [hget] at hspared
  cases r with
  | error e => exact ⟨more, kept, rfl⟩
  | ok previous =>
    dsimp only
    split
    · exact ⟨more, kept, rfl⟩
    · obtain ⟨more', hmore', hexec'⟩ := commit_moments sc c new ([] ++ more) w₁
      refine ⟨more ++ more', fun fs hfs => ?_, hexec'⟩
      rcases List.mem_append.mp hfs with hfs | hfs
      · exact kept fs hfs
      · rw [← hspared.lookup]
        exact hmore' fs hfs

/-- At every moment of an update the file of the cursor is as it was before or holds the whole text
of the new cursor. It is as it was if the update fails, and holds the new cursor if the update
succeeds. A second file that was left behind changes neither what is read before an update nor what
is stored by one that succeeds. -/
theorem update_atomic (sc : Scenario) (c : Checkpoint) (new : Candidate) (w : World) :
    let (result, moments, w') := Act.exec (c.update sc.notedDisk new) ([], w)
    (∀ fs ∈ moments, fs.lookup c.path = w.files.lookup c.path ∨ c.Holds new fs) ∧
      (match result with
        | .ok _ => c.Holds new w'.files
        | .error _ => w'.files.lookup c.path = w.files.lookup c.path) ∧
      ∀ leftover fs, w.files.write c.scratch leftover = .ok fs →
        (Act.exec (c.get sc.disk) { w with files := fs }).1 = (Act.exec (c.get sc.disk) w).1 ∧
          ∀ later w₁ w₂, Act.exec (c.update sc.disk later) { w with files := fs } = (.ok (), w₁) →
            Act.exec (c.update sc.disk later) w = (.ok (), w₂) →
            w₁.files.read c.path = w₂.files.read c.path := by
  obtain ⟨moments, hmoments, hexec⟩ := update_moments sc c new w
  rw [hexec]
  refine ⟨hmoments, ?_, fun leftover fs hwrite => ⟨?_, ?_⟩⟩
  · rcases hupdate : Act.exec (c.update sc.disk new) w with ⟨r, w'⟩
    cases r with
    | ok _ =>
      obtain ⟨_, text, p, -, -, htext, hlookup, -⟩ := update_text hupdate
      exact holds_of_lookup htext hlookup
    | error e => exact (update_error hupdate).lookup
  · exact get_congr rfl (Files.lookup_write_beside hwrite)
  · intro later w₁ w₂ h₁ h₂
    obtain ⟨_, text₁, p₁, -, -, htext₁, hlookup₁, -⟩ := update_text h₁
    obtain ⟨_, text₂, p₂, -, -, htext₂, hlookup₂, -⟩ := update_text h₂
    obtain rfl : text₁ = text₂ := Except.ok.inj (htext₁.symm.trans htext₂)
    simp [Files.read, hlookup₁, hlookup₂]

/-! An update whose process died has left half of a text in the second file. The next one stores the
same as if nothing had been there. -/

deriving instance DecidableEq for Files

def leftBehind : Files :=
  ⟨[(["cursor.tmp"], .file (Text.encode "\x7b\"cur"))]⟩

def calmScenario : Scenario where
  node _ _ _ := .ok .null
  sink _ _ := .accepted
  interrupt _ := none
  breakdown _ := none

theorem leftover_ignored :
    let c : Checkpoint := ⟨"cursor"⟩
    let new : Candidate := .cursor (.transaction "s" (by decide))
    ({} : Files).write c.scratch (Text.encode "\x7b\"cur") = .ok leftBehind ∧
      ∃ w₁ w₂, Act.exec (c.update calmScenario.disk new) { files := leftBehind } = (.ok (), w₁) ∧
        Act.exec (c.update calmScenario.disk new) {} = (.ok (), w₂) ∧
        w₁.files.read c.path = w₂.files.read c.path := by
  intro c new
  have hwrite : ({} : Files).write c.scratch (Text.encode "\x7b\"cur") = .ok leftBehind :=
    ok_of_toOption (by decide +kernel)
  have hfound : Act.exec (c.update calmScenario.disk new) { files := leftBehind } = (.ok (), _) :=
    Prod.ext (ok_of_toOption (by decide +kernel)) rfl
  have hclean : Act.exec (c.update calmScenario.disk new) {} = (.ok (), _) :=
    Prod.ext (ok_of_toOption (by decide +kernel)) rfl
  have hatomic := update_atomic calmScenario c new {}
  rcases Act.exec (c.update calmScenario.notedDisk new) ([], {}) with ⟨r, moments, w'⟩
  exact ⟨hwrite, _, _, hfound, hclean, (hatomic.2.2 _ leftBehind hwrite).2 new _ _ hfound hclean⟩

end Checkpoint

end ChainIndexer
