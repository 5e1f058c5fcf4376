import ChainIndexer.Proofs.Files
import ChainIndexer.Proofs.StoredCursor
import ChainIndexer.Proofs.World

/-!
The file of the committed cursor in a world where every operation on a file may break down.
`Checkpoint.stored` is the cursor that some files hold. Reading the cursor gives the stored one or
fails; an update that fails leaves what the name of the file stands for as it was, and an update
that succeeds stores the new cursor (`update_ok`), of which it tells the world. Both hold for every
moment at which an operation breaks down, also in the middle of a write.
-/

namespace ChainIndexer

/-- A later world in which a name stands for the same, and nothing was told in between. -/
structure World.Spares (name : String) (w w' : World) : Prop where
  clock : w.clock ≤ w'.clock
  lookup : w'.files.lookup name = w.files.lookup name
  events : w'.events = w.events

instance (name : String) : Act.Lasting (World.Spares name) where
  refl _ := ⟨Nat.le_refl _, rfl, rfl⟩
  trans h h' :=
    ⟨Nat.le_trans h.clock h'.clock, h'.lookup.trans h.lookup, h'.events.trans h.events⟩

namespace Checkpoint

open Act

section Memory

variable {n : Type → Type} [Monad n] [LawfulMonad n] {σ : Type}

theorem get_within (c : Checkpoint) (d : Disk n) :
    c.get (d.within : Disk (StateT σ n)) = Act.within (c.get d) := by
  unfold get
  simp only [Disk.within, within_bind, within_sure]
  congr 1
  funext b
  cases b with
  | false => exact (within_pure _).symm
  | true =>
    simp only [if_true, within_rewording, within_bind, within_lift]

theorem appendAll_within (d : Disk n) (path : String) (ps : List (Except Fault String)) :
    appendAll (d.within : Disk (StateT σ n)) path ps = Act.within (appendAll d path ps) := by
  induction ps with
  | nil => exact (within_pure _).symm
  | cons p rest ih =>
    cases p with
    | ok s => simp only [appendAll, within_bind, ih]; rfl
    | error e => exact (within_throw _).symm

theorem writeScratch_within (c : Checkpoint) (d : Disk n) (new : Candidate) :
    c.writeScratch (d.within : Disk (StateT σ n)) new = Act.within (c.writeScratch d new) := by
  simp only [writeScratch, within_bind, within_lift, appendAll_within]
  rfl

theorem update_within (c : Checkpoint) (d : Disk n) (new : Candidate) :
    c.update (d.within : Disk (StateT σ n)) new = Act.within (c.update d new) := by
  simp only [update, within_bind, get_within, writeScratch_within]
  congr 1
  funext previous
  split
  · rw [within_bind, within_throw, within_rewording, within_bind]
    rfl
  · rw [within_rewording, within_bind]
    rfl

end Memory

theorem exec_read {σ : Type} (p : Files.Place σ) (name : String) (s : σ) :
    Act.exec (p.disk.read name) s = (((p.get s).read name).mapError (.file · name), s) :=
  rfl

/-- The cursor that some files hold. -/
def stored (c : Checkpoint) (fs : Files) : Except Failure Cursor :=
  (Act.exec (c.get Files.Place.whole.disk) fs).1

theorem stored_eq (c : Checkpoint) (fs : Files) :
    c.stored fs =
      if fs.isThere c.path then
        (((fs.read c.path).mapError (.file · c.path)).bind ofBytes).mapError fun e =>
          if isUnreadable e.kind then .checkpointUnreadable e else e
      else .ok .start := by
  unfold stored get
  rw [exec_bind, exec_sure]
  change (Act.exec (if fs.isThere c.path = true then _ else _) fs).1 = _
  split
  · rw [exec_rewording, exec_bind, exec_read]
    change Except.mapError _ _ = _
    cases h : fs.read c.path with
    | ok bs => simp [Files.Place.whole, h, Except.mapError, Except.bind]
    | error e => simp [Files.Place.whole, h, Except.mapError, Except.bind]
  · rw [exec_pure]

theorem isThere_congr {fs fs' : Files} {name : String} (h : fs'.lookup name = fs.lookup name) :
    fs'.isThere name = fs.isThere name := by
  simp only [Files.isThere, h]

theorem read_congr {fs fs' : Files} {name : String} (h : fs'.lookup name = fs.lookup name) :
    fs'.read name = fs.read name := by
  simp only [Files.read, h]

theorem stored_congr {c : Checkpoint} {fs fs' : Files}
    (h : fs'.lookup c.path = fs.lookup c.path) : c.stored fs' = c.stored fs := by
  rw [stored_eq, stored_eq, isThere_congr h, read_congr h]

theorem stored_absent {c : Checkpoint} {fs : Files} (h : fs.isThere c.path = false) :
    c.stored fs = .ok .start := by
  rw [stored_eq, h]
  rfl

theorem stored_of_content {c : Checkpoint} {fs : Files} {p : Path} {content : Bytes}
    {cursor : Cursor} (h : fs.lookup c.path = .ok (p, some (.file content)))
    (hcontent : ofBytes content = .ok cursor) : c.stored fs = .ok cursor := by
  have there : fs.isThere c.path = true := by simp [Files.isThere, h]
  have hread : fs.read c.path = .ok content := by simp [Files.read, h]
  rw [stored_eq, there, hread]
  simp [Except.mapError, Except.bind, hcontent]

/-! ### Operations that may break down -/

theorem exec_operate {α : Type} (sc : Scenario) (name : String) (x : Act (StateM World) α)
    (torn : Nat → Files → Files) (w : World) :
    Act.exec (sc.operate name x torn) w =
      match sc.breakdown w.clock with
      | some b =>
        (.error (.file b.fault name), { w.after [] with files := torn b.written w.files })
      | none => Act.exec x (w.after []) :=
  rfl

theorem exec_change (name : String) (f : Files → Except Fault Files) (w : World) :
    Act.exec (World.place.change name f) w =
      match f w.files with
      | .ok next => (.ok (), { w with files := next })
      | .error e => (.error (.file e name), w) :=
  rfl

/-- An operation on the files that succeeded did not break down. -/
theorem operate_ok {α : Type} {sc : Scenario} {name : String} {x : Act (StateM World) α}
    {torn : Nat → Files → Files} {w w' : World} {a : α}
    (h : Act.exec (sc.operate name x torn) w = (.ok a, w')) :
    Act.exec x (w.after []) = (.ok a, w') := by
  rw [exec_operate] at h
  split at h
  · cases h
  · exact h

/-- An operation leaves alone what its parts leave alone. -/
theorem operate_keeps {α : Type} {sc : Scenario} {name path : String} {x : Act (StateM World) α}
    {torn : Nat → Files → Files} (hx : Keeps (World.Spares path) x)
    (htorn : ∀ written fs, (torn written fs).lookup path = fs.lookup path) :
    Keeps (World.Spares path) (sc.operate name x torn) := by
  intro w
  have hafter : World.Spares path w (w.after []) :=
    ⟨Nat.le_succ _, rfl, List.append_nil _⟩
  rw [exec_operate]
  split
  · exact ⟨Nat.le_succ _, htorn _ _, List.append_nil _⟩
  · exact Lasting.trans hafter (hx _)

/-- A change of the files leaves alone the names whose meaning it does not change. -/
theorem change_keeps {path name : String} {f : Files → Except Fault Files}
    (hf : ∀ fs fs', f fs = .ok fs' → fs'.lookup path = fs.lookup path) :
    Keeps (World.Spares path) (World.place.change name f) := by
  intro w
  rw [exec_change]
  split
  · rename_i next hnext
    exact ⟨Nat.le_refl _, hf _ _ hnext, rfl⟩
  · exact Lasting.refl w

theorem change_ok {name : String} {f : Files → Except Fault Files} {w w' : World}
    (h : Act.exec (World.place.change name f) w = (.ok (), w')) :
    f w.files = .ok w'.files ∧ w'.clock = w.clock ∧ w'.events = w.events := by
  rw [exec_change] at h
  split at h
  · rename_i next hnext
    cases h
    exact ⟨hnext, rfl, rfl⟩
  · cases h

variable {sc : Scenario} {c : Checkpoint} {w w' : World}

/-! ### Reading the cursor -/

theorem read_keeps (sc : Scenario) (path name : String) :
    Keeps (World.Spares path) (sc.disk.read name) := by
  rw [Scenario.disk_read]
  exact operate_keeps (fun w => Lasting.refl w) fun _ _ => rfl

theorem get_keeps (sc : Scenario) (c : Checkpoint) :
    Keeps (World.Spares c.path) (c.get sc.disk) := by
  unfold get
  refine Keeps.bind ?_ ?_
  · intro w
    exact Lasting.refl w
  · intro there
    cases there with
    | false => exact Keeps.pure _
    | true =>
      refine Keeps.rewording ?_ _ _
      refine Keeps.bind (read_keeps sc c.path c.path) ?_
      exact fun _ => Keeps.lift _

/-- Reading the cursor gives the stored one, unless the file is there and its reading breaks down. -/
theorem get_result (sc : Scenario) (c : Checkpoint) (w : World) :
    (Act.exec (c.get sc.disk) w).1 =
      match w.files.isThere c.path, sc.breakdown w.clock with
      | true, some b =>
        let e := Failure.file b.fault c.path
        .error (if isUnreadable e.kind then .checkpointUnreadable e else e)
      | _, _ => c.stored w.files := by
  have hthere : Act.exec (Act.sure (sc.disk.isThere c.path) : Act (StateM World) Bool) w =
      (.ok (w.files.isThere c.path), w) := exec_sure _ w
  unfold get
  rw [exec_bind_of_ok hthere, stored_eq]
  cases hfile : w.files.isThere c.path with
  | false => simp
  | true =>
    rw [if_pos rfl, exec_rewording, exec_bind, Scenario.disk_read, exec_operate]
    cases sc.breakdown w.clock with
    | some b => rfl
    | none =>
      have hread := exec_read World.place c.path (w.after [])
      rw [hread]
      change Except.mapError _ _ = _
      cases hcontent : w.files.read c.path with
      | ok content => simp [World.place, hcontent, Except.mapError, Except.bind]
      | error e => simp [World.place, hcontent, Except.mapError, Except.bind]

theorem get_ok {cursor : Cursor} (h : Act.exec (c.get sc.disk) w = (.ok cursor, w')) :
    c.stored w.files = .ok cursor := by
  have hresult := get_result sc c w
  rw [h] at hresult
  split at hresult
  · cases hresult
  · exact hresult.symm

/-- What is read depends on the time and on the file of the cursor only. -/
theorem get_congr (clock : w'.clock = w.clock)
    (lookup : w'.files.lookup c.path = w.files.lookup c.path) :
    (Act.exec (c.get sc.disk) w').1 = (Act.exec (c.get sc.disk) w).1 := by
  rw [get_result, get_result, isThere_congr lookup, clock, stored_congr lookup]

/-! ### Writing the second file -/

theorem encode_append (s t : String) : Text.encode (s ++ t) = Text.encode s ++ Text.encode t := by
  simp [Text.encode]

theorem append_ok {fs fs' : Files} {name : String} {more : Bytes}
    (h : fs.append name more = .ok fs') :
    ∃ content, fs.read name = .ok content ∧ fs.write name (content ++ more) = .ok fs' := by
  unfold Files.append at h
  cases hr : fs.read name with
  | error e => simp [hr, bind, Except.bind] at h
  | ok content => exact ⟨content, rfl, by simpa [hr, bind, Except.bind] using h⟩

theorem read_write {fs fs' : Files} {name : String} {content : Bytes}
    (h : fs.write name content = .ok fs') : fs'.read name = .ok content := by
  obtain ⟨p, hp⟩ := Files.lookup_write h
  simp [Files.read, hp]

theorem lookup_append_beside {fs fs' : Files} {name : String} {more : Bytes}
    (h : fs.append (name ++ Files.ending) more = .ok fs') : fs'.lookup name = fs.lookup name := by
  obtain ⟨_, _, hwrite⟩ := append_ok h
  exact Files.lookup_write_beside hwrite

theorem create_keeps (sc : Scenario) (c : Checkpoint) :
    Keeps (World.Spares c.path) (sc.disk.create c.scratch) := by
  rw [Scenario.disk_create]
  refine operate_keeps ?_ fun _ _ => rfl
  exact change_keeps fun fs fs' h => Files.lookup_write_beside h

theorem append_keeps (sc : Scenario) (c : Checkpoint) (more : Bytes) :
    Keeps (World.Spares c.path) (sc.disk.append c.scratch more) := by
  rw [Scenario.disk_append]
  refine operate_keeps ?_ fun written fs => ?_
  · exact change_keeps fun fs fs' h => lookup_append_beside h
  · unfold Scenario.tornAppend
    split
    · rename_i fs' h
      exact lookup_append_beside h
    · rfl

theorem appendAll_keeps (sc : Scenario) (c : Checkpoint) (ps : List (Except Fault String)) :
    Keeps (World.Spares c.path) (appendAll sc.disk c.scratch ps) := by
  induction ps with
  | nil => exact Keeps.pure _
  | cons p rest ih =>
    cases p with
    | ok s => exact Keeps.bind (append_keeps sc c _) fun _ => ih
    | error e => exact Keeps.throw _

theorem writeScratch_keeps (sc : Scenario) (c : Checkpoint) (new : Candidate) :
    Keeps (World.Spares c.path) (c.writeScratch sc.disk new) :=
  Keeps.bind (create_keeps sc c) fun _ => Keeps.bind (Keeps.lift _) fun _ => appendAll_keeps sc c _

/-- The pieces that were appended stand behind what was there. -/
theorem appendAll_ok {name : String} {ps : List (Except Fault String)} {content : Bytes}
    (hread : w.files.read name = .ok content)
    (h : Act.exec (appendAll sc.disk name ps) w = (.ok (), w')) :
    ∃ s, Json.together ps = .ok s ∧ w'.files.read name = .ok (content ++ Text.encode s) := by
  induction ps generalizing w content with
  | nil =>
    refine ⟨"", rfl, ?_⟩
    rw [appendAll, exec_pure] at h
    cases h
    simpa [Text.encode] using hread
  | cons p rest ih =>
    cases p with
    | error e =>
      rw [appendAll, exec_throw] at h
      cases h
    | ok t =>
      obtain ⟨⟨⟩, w₁, happend, hrest⟩ := exec_bind_ok h
      rw [Scenario.disk_append] at happend
      obtain ⟨hchange, -, -⟩ := change_ok (operate_ok happend)
      obtain ⟨content', hcontent', hwrite⟩ := append_ok hchange
      obtain rfl : content = content' := by
        have hsame : (w.after []).files.read name = .ok content := hread
        rw [hsame] at hcontent'
        exact Except.ok.inj hcontent'
      obtain ⟨s, hs, hread'⟩ := ih (read_write hwrite) hrest
      refine ⟨t ++ s, by simp [Json.together, hs, Except.map], ?_⟩
      rw [hread', encode_append, List.append_assoc]

/-- The text that a checkpoint keeps of what is handed to it as a cursor. -/
def textOf (new : Candidate) : Except Failure String := do
  let v ← new.toValue
  Json.write (.object [("cursor", v)])

theorem textOf_cursor {new : Cursor} {text : String} (h : textOf new = .ok text) :
    Json.write (document new) = .ok text := by
  obtain ⟨v, hv, h⟩ := bind_ok h
  obtain rfl : new.toValue = v := Except.ok.inj hv
  exact liftFault_ok_iff.mp h

/-- The second file that was written holds the whole text. -/
theorem writeScratch_ok {new : Candidate}
    (h : Act.exec (c.writeScratch sc.disk new) w = (.ok (), w')) :
    ∃ text, textOf new = .ok text ∧ w'.files.read c.scratch = .ok (Text.encode text) := by
  obtain ⟨⟨⟩, w₁, hcreate, h⟩ := exec_bind_ok h
  obtain ⟨v, w₂, hv, happend⟩ := exec_bind_ok h
  obtain ⟨hvalue, rfl⟩ := of_exec_lift hv
  rw [Scenario.disk_create] at hcreate
  obtain ⟨hwrite, -, -⟩ := change_ok (operate_ok hcreate)
  obtain ⟨text, hjson, hread⟩ := appendAll_ok (read_write hwrite) happend
  refine ⟨text, ?_, by simpa using hread⟩
  rw [textOf, hvalue]
  exact liftFault_ok_iff.mpr hjson

/-! ### Replacing the file -/

theorem exec_tellStored (name : String) (w : World) :
    Act.exec (Scenario.tellStored name) w =
      match w.files.read name with
      | .ok content => (.ok (), { w with events := w.events ++ [.stored content] })
      | .error _ => (.ok (), w) :=
  rfl

/-- Telling of a content changes nothing but the account. -/
theorem exec_tellStored_of_content {name : String} {p : Path} {content : Bytes}
    (h : w.files.lookup name = .ok (p, some (.file content))) :
    Act.exec (Scenario.tellStored name) w =
      (.ok (), { w with events := w.events ++ [.stored content] }) := by
  have hread : w.files.read name = .ok content := by simp [Files.read, h]
  rw [exec_tellStored, hread]

/-- The file is replaced as a whole, and the world is told of it, or nothing is changed. -/
theorem exec_replace (sc : Scenario) (c : Checkpoint) (w : World) :
    (∃ e, Act.exec (sc.disk.replace c.scratch c.path) w = (.error e, w.after [])) ∨
      ∃ fs content p, w.files.read c.scratch = .ok content ∧
        fs.lookup c.path = .ok (p, some (.file content)) ∧
        Act.exec (sc.disk.replace c.scratch c.path) w =
          (.ok (), { w.after [.stored content] with files := fs }) := by
  rw [Scenario.disk_replace, exec_operate]
  split
  · exact Or.inl ⟨_, rfl⟩
  · have hchange := exec_change c.scratch (·.replace c.scratch c.path) (w.after [])
    rw [World.files_after] at hchange
    cases hreplace : w.files.replace c.scratch c.path with
    | error e =>
      rw [hreplace] at hchange
      exact Or.inl ⟨_, exec_bind_of_error hchange _⟩
    | ok fs =>
      rw [hreplace] at hchange
      obtain ⟨content, p, hread, hlookup⟩ := Files.lookup_replace hreplace
      refine Or.inr ⟨fs, content, p, hread, hlookup, ?_⟩
      rw [exec_bind_of_ok hchange, exec_tellStored_of_content hlookup]
      simp [World.after]

/-! ### Updating the cursor -/

/-- What an update does once the new cursor was found to be no step back. -/
def commit {n : Type → Type} [Monad n] (c : Checkpoint) (disk : Disk n) (new : Candidate) :
    Act n Unit :=
  Act.rewording (do
    c.writeScratch disk new
    disk.replace c.scratch c.path) Kind.isSystem .checkpointUnwritable

/-- An update reads the cursor, compares it with the new one and commits the new one. -/
theorem exec_update {n : Type → Type} [Monad n] {σ : Type} [Threaded n σ] (c : Checkpoint)
    (disk : Disk n) (new : Candidate) (s : σ) :
    Act.exec (c.update disk new) s =
      match Act.exec (c.get disk) s with
      | (.ok previous, s') =>
        if Candidate.regresses previous new then (.error (.regression previous new), s')
        else Act.exec (c.commit disk new) s'
      | (.error e, s') => (.error e, s') := by
  rw [update, exec_bind]
  cases Act.exec (c.get disk) s with
  | mk r s' =>
    cases r with
    | error e => rfl
    | ok previous =>
      dsimp only
      split
      · exact exec_bind_of_error (exec_throw _ _) _
      · rfl

/-- A commit that fails leaves the file of the cursor as it was. -/
theorem commit_error {new : Candidate} {e : Failure}
    (h : Act.exec (c.commit sc.disk new) w = (.error e, w')) : World.Spares c.path w w' := by
  obtain ⟨e', h⟩ := exec_rewording_error h
  rcases exec_bind_error h with hwrite | ⟨_, w₁, hwrite, hreplace⟩
  · exact (writeScratch_keeps sc c new).of_exec hwrite
  · refine Lasting.trans ((writeScratch_keeps sc c new).of_exec hwrite) ?_
    rcases exec_replace sc c w₁ with ⟨e₁, heq⟩ | ⟨fs, content, p, -, -, heq⟩
    · rw [heq] at hreplace
      cases hreplace
      exact ⟨Nat.le_succ _, rfl, List.append_nil _⟩
    · rw [heq] at hreplace
      cases hreplace

/-- A commit that succeeds has given the file the whole text of the new cursor, and told of it. -/
theorem commit_ok {new : Candidate} (h : Act.exec (c.commit sc.disk new) w = (.ok (), w')) :
    ∃ text p, textOf new = .ok text ∧
      w'.files.lookup c.path = .ok (p, some (.file (Text.encode text))) ∧ w.clock ≤ w'.clock ∧
      w'.events = w.events ++ [.stored (Text.encode text)] := by
  obtain ⟨⟨⟩, w₁, hwrite, hreplace⟩ := exec_bind_ok (exec_rewording_ok h)
  have spared := (writeScratch_keeps sc c new).of_exec hwrite
  obtain ⟨text, htext, hread⟩ := writeScratch_ok hwrite
  rcases exec_replace sc c w₁ with ⟨e₁, heq⟩ | ⟨fs, content, p, hread', hlookup, heq⟩
  · rw [heq] at hreplace
    cases hreplace
  · rw [heq] at hreplace
    cases hreplace
    obtain rfl : Text.encode text = content := by
      rw [hread] at hread'
      exact Except.ok.inj hread'
    exact ⟨text, p, htext, hlookup, Nat.le_succ_of_le spared.clock, by simp [spared.events]⟩

/-- An update that fails leaves the file of the cursor as it was. -/
theorem update_error {new : Candidate} {e : Failure}
    (h : Act.exec (c.update sc.disk new) w = (.error e, w')) : World.Spares c.path w w' := by
  rw [exec_update] at h
  rcases hget : Act.exec (c.get sc.disk) w with ⟨r, w₁⟩
  have first := (get_keeps sc c).of_exec hget
  rw [hget] at h
  cases r with
  | error e' =>
    cases h
    exact first
  | ok previous =>
    dsimp only at h
    split at h
    · cases h
      exact first
    · exact Lasting.trans first (commit_error h)

/-- An update that succeeds has read a cursor from which the new one is no step back, has given the
file the whole text of the new one, and has told of it. -/
theorem update_text {new : Candidate} (h : Act.exec (c.update sc.disk new) w = (.ok (), w')) :
    ∃ previous text p, c.stored w.files = .ok previous ∧
      Candidate.regresses previous new = false ∧ textOf new = .ok text ∧
      w'.files.lookup c.path = .ok (p, some (.file (Text.encode text))) ∧ w.clock ≤ w'.clock ∧
      w'.events = w.events ++ [.stored (Text.encode text)] := by
  rw [exec_update] at h
  rcases hget : Act.exec (c.get sc.disk) w with ⟨r, w₁⟩
  have first := (get_keeps sc c).of_exec hget
  rw [hget] at h
  cases r with
  | error e => cases h
  | ok previous =>
    dsimp only at h
    split at h
    · cases h
    · rename_i hregresses
      obtain ⟨text, p, htext, hlookup, hclock, hevents⟩ := commit_ok h
      rw [first.events] at hevents
      exact ⟨previous, text, p, get_ok hget, by simpa using hregresses, htext, hlookup,
        Nat.le_trans first.clock hclock, hevents⟩

/-- An update that succeeds has stored the new cursor, and told of it. -/
theorem update_ok {new : Cursor} (h : Act.exec (c.update sc.disk new) w = (.ok (), w')) :
    c.stored w'.files = .ok new.settled ∧ w.clock ≤ w'.clock ∧
      ∃ content, ofBytes content = .ok new.settled ∧ w'.events = w.events ++ [.stored content] := by
  obtain ⟨_, text, p, -, -, htext, hlookup, hclock, hevents⟩ := update_text h
  have hcontent : ofBytes (Text.encode text) = .ok new.settled :=
    ofBytes_encode (textOf_cursor htext)
  exact ⟨stored_of_content hlookup hcontent, hclock, _, hcontent, hevents⟩

end Checkpoint

end ChainIndexer
