import ChainIndexer.Disk

/-!
A file and the one beside it whose name has an ending more. Where a name leads depends only on which
paths are directories, so that writing a file changes where no name leads (`locate_congr`), and two
names that differ in the ending of their last step lead to different paths (`locate_beside`). From
these: a write to the second file leaves the first one as it is, and a replacement gives the first
one the content of the second.
-/

namespace ChainIndexer.Files

/-- The same paths are directories. -/
def SameDirectories (fs fs' : Files) : Prop :=
  ∀ p, fs.find? p = some .directory ↔ fs'.find? p = some .directory

theorem find?_put_self {fs : Files} {p : Path} {e : Entry} (hp : p ≠ []) :
    (fs.put p e).find? p = some e := by
  simp [find?, put, hp]

theorem find?_filter_of_ne {es : List (Path × Entry)} {p q : Path} (hpq : q ≠ p) :
    (es.filter fun f => f.1 != p).find? (fun e => e.1 == q) = es.find? fun e => e.1 == q := by
  rw [List.find?_filter]
  congr 1
  funext e
  by_cases he : e.1 = q
  · simp [he, hpq]
  · simp [he]

theorem find?_put_of_ne {fs : Files} {p q : Path} {e : Entry} (hpq : q ≠ p) :
    (fs.put p e).find? q = fs.find? q := by
  have hhead : ((p, e).1 == q) = false := by simpa using fun h => hpq h.symm
  unfold find? put
  simp only [List.find?_cons, hhead, find?_filter_of_ne hpq]

theorem find?_erase_of_ne {fs : Files} {p q : Path} (hpq : q ≠ p) :
    (fs.erase p).find? q = fs.find? q := by
  unfold find? erase
  simp only [find?_filter_of_ne hpq]

theorem sameDirectories_put {fs : Files} {p : Path} {c : Bytes}
    (hp : fs.find? p ≠ some .directory) : SameDirectories fs (fs.put p (.file c)) := by
  intro q
  by_cases hq : q = p
  · subst hq
    have hne : q ≠ [] := by
      rintro rfl
      exact hp (by simp [find?])
    simp [find?_put_self hne, hp]
  · rw [find?_put_of_ne hq]

theorem sameDirectories_erase {fs : Files} {p : Path}
    (hp : fs.find? p ≠ some .directory) : SameDirectories fs (fs.erase p) := by
  intro q
  by_cases hq : q = p
  · subst hq
    have hne : q ≠ [] := by
      rintro rfl
      exact hp (by simp [find?])
    have hnone : (fs.erase q).find? q = none := by
      simp [find?, erase, hne]
    simp [hnone, hp]
  · rw [find?_erase_of_ne hq]

theorem SameDirectories.trans {fs fs' fs'' : Files} (h : SameDirectories fs fs')
    (h' : SameDirectories fs' fs'') : SameDirectories fs fs'' :=
  fun p => (h p).trans (h' p)

theorem walk_up (fs : Files) (done : Path) (rest : List String) :
    fs.walk done (".." :: rest) = fs.walk done.dropLast rest := by
  rw [walk, if_pos rfl]

theorem walk_last_ok_iff {fs : Files} {done p : Path} {s : String} (hs : s ≠ "..") :
    fs.walk done [s] = .ok p ↔ s.utf8ByteSize ≤ maxStep ∧ done ++ [s] = p := by
  rw [walk, if_neg hs]
  by_cases hlong : maxStep < s.utf8ByteSize
  · simp [hlong, Nat.not_le.mpr hlong]
  · simp [hlong, Nat.not_lt.mp hlong]

/-- A walk goes on behind a step if that leads to a directory. -/
theorem walk_into_ok_iff {fs : Files} {done p : Path} {s : String} {rest : List String}
    (hs : s ≠ "..") (hrest : rest ≠ []) : fs.walk done (s :: rest) = .ok p ↔
      s.utf8ByteSize ≤ maxStep ∧ fs.find? (done ++ [s]) = some .directory ∧
        fs.walk (done ++ [s]) rest = .ok p := by
  have hmore : ¬ rest.isEmpty = true := by simpa using hrest
  rw [walk, if_neg hs, if_neg hmore]
  by_cases hlong : maxStep < s.utf8ByteSize
  · simp [hlong, Nat.not_le.mpr hlong]
  · rw [if_neg hlong]
    cases hentry : fs.find? (done ++ [s]) with
    | none => simp
    | some e => cases e <;> simp [Nat.not_lt.mp hlong]

/-- A walk that succeeds meets directories only, so it succeeds wherever they are the same. -/
theorem walk_congr {fs fs' : Files} (same : SameDirectories fs fs') {steps : List String}
    {done p : Path} (h : fs.walk done steps = .ok p) : fs'.walk done steps = .ok p := by
  induction steps generalizing done with
  | nil => exact h
  | cons s rest ih =>
    by_cases hs : s = ".."
    · subst hs
      rw [walk_up] at h ⊢
      exact ih h
    by_cases hrest : rest = []
    · subst hrest
      exact (walk_last_ok_iff hs).mpr ((walk_last_ok_iff hs).mp h)
    · obtain ⟨hsize, hentry, hwalk⟩ := (walk_into_ok_iff hs hrest).mp h
      exact (walk_into_ok_iff hs hrest).mpr ⟨hsize, (same _).mp hentry, ih hwalk⟩

/-- A name stands for a path if it is a name at all and the walk over its steps comes there. -/
theorem locate_ok_iff {fs : Files} {name : String} {p : Path} : fs.locate name = .ok p ↔
    name ≠ "" ∧ '\x00' ∉ name.toList ∧ name.utf8ByteSize ≤ maxName ∧
      fs.walk [] (stepsOf name) = .ok p := by
  unfold locate
  constructor
  · intro h
    split at h
    · cases h
    split at h
    · cases h
    split at h
    · cases h
    rename_i hempty hnul hsize
    exact ⟨by simpa using hempty, by simpa using hnul, Nat.not_lt.mp hsize, h⟩
  · rintro ⟨hempty, hnul, hsize, h⟩
    rw [if_neg (by simpa using hempty), if_neg (by simpa using hnul), if_neg (Nat.not_lt.mpr hsize)]
    exact h

theorem locate_congr {fs fs' : Files} (same : SameDirectories fs fs') {name : String} {p : Path}
    (h : fs.locate name = .ok p) : fs'.locate name = .ok p := by
  obtain ⟨hempty, hnul, hsize, hwalk⟩ := locate_ok_iff.mp h
  exact locate_ok_iff.mpr ⟨hempty, hnul, hsize, walk_congr same hwalk⟩

/-- A path all of whose beginnings are directories. -/
def Through (fs : Files) (d : Path) : Prop :=
  ∀ q, q <+: d → fs.find? q = some .directory

theorem through_root (fs : Files) : Through fs [] := by
  intro q hq
  simp [List.prefix_nil.mp hq, find?]

theorem Through.up {fs : Files} {d : Path} (h : Through fs d) : Through fs d.dropLast :=
  fun q hq => h q (hq.trans (List.dropLast_prefix d))

theorem Through.into {fs : Files} {d : Path} (h : Through fs d) {s : String}
    (hentry : fs.find? (d ++ [s]) = some .directory) : Through fs (d ++ [s]) := by
  intro q hq
  rcases List.prefix_concat_iff.mp hq with rfl | hq
  · exact hentry
  · exact h q hq

/-- A single step leads up or below. -/
theorem walk_single (fs : Files) (done : Path) {t : String} (ht : t.utf8ByteSize ≤ maxStep) :
    fs.walk done [t] = .ok (if t = ".." then done.dropLast else done ++ [t]) := by
  by_cases hup : t = ".."
  · rw [hup, walk_up, if_pos rfl, walk]
  · rw [if_neg hup]
    exact (walk_last_ok_iff hup).mpr ⟨ht, rfl⟩

/-- A walk that goes on for one step more has come to a directory before it. -/
theorem walk_through {fs : Files} {init : List String} {s : String} (hs : s ≠ "..")
    {done p : Path} (hdone : Through fs done) (h : fs.walk done (init ++ [s]) = .ok p) :
    ∃ d, Through fs d ∧ fs.walk done init = .ok d ∧ p = d ++ [s] ∧ s.utf8ByteSize ≤ maxStep ∧
      ∀ t, t.utf8ByteSize ≤ maxStep →
        fs.walk done (init ++ [t]) = .ok (if t = ".." then d.dropLast else d ++ [t]) := by
  induction init generalizing done with
  | nil =>
    obtain ⟨hsize, rfl⟩ := (walk_last_ok_iff hs).mp h
    exact ⟨done, hdone, rfl, rfl, hsize, fun t ht => walk_single fs done ht⟩
  | cons x rest ih =>
    rw [List.cons_append] at h
    by_cases hx : x = ".."
    · subst hx
      rw [walk_up] at h
      obtain ⟨d, hd, hwalk, hp, hsize, hnext⟩ := ih hdone.up h
      refine ⟨d, hd, by rwa [walk_up], hp, hsize, fun t ht => ?_⟩
      rw [List.cons_append, walk_up]
      exact hnext t ht
    · have hmore : ∀ t, rest ++ [t] ≠ [] := fun t => List.concat_ne_nil t rest
      obtain ⟨hstep, hentry, hinto⟩ := (walk_into_ok_iff hx (hmore s)).mp h
      obtain ⟨d, hd, hwalk, hp, hsize, hnext⟩ := ih (hdone.into hentry) hinto
      refine ⟨d, hd, ?_, hp, hsize, fun t ht => ?_⟩
      · by_cases hrest : rest = []
        · subst hrest
          obtain rfl : done ++ [x] = d := Except.ok.inj hwalk
          exact (walk_last_ok_iff hx).mpr ⟨hstep, rfl⟩
        · exact (walk_into_ok_iff hx hrest).mpr ⟨hstep, hentry, hwalk⟩
      · exact (walk_into_ok_iff hx (hmore t)).mpr ⟨hstep, hentry, hnext t ht⟩

/-! ### A name and the same name with an ending more -/

private theorem splitOn_append_last (cs : List Char) :
    ∃ init last, cs.splitOn '/' = init ++ [last] ∧
      ∀ e : List Char, '/' ∉ e → (cs ++ e).splitOn '/' = init ++ [last ++ e] := by
  induction cs with
  | nil => exact ⟨[], [], rfl, fun e he => by simp [List.splitOn_eq_singleton he]⟩
  | cons c cs ih =>
    obtain ⟨init, last, hsplit, happend⟩ := ih
    by_cases hc : c = '/'
    · refine ⟨[] :: init, last, ?_, fun e he => ?_⟩
      · simp [List.splitOn_cons_eq_if_modifyHead, hc, hsplit]
      · simp [List.splitOn_cons_eq_if_modifyHead, hc, happend e he]
    · cases init with
      | nil =>
        refine ⟨[], c :: last, ?_, fun e he => ?_⟩
        · simp [List.splitOn_cons_eq_if_modifyHead, hc, hsplit]
        · simp [List.splitOn_cons_eq_if_modifyHead, hc, happend e he]
      | cons first more =>
        refine ⟨(c :: first) :: more, last, ?_, fun e he => ?_⟩
        · simp [List.splitOn_cons_eq_if_modifyHead, hc, hsplit]
        · simp [List.splitOn_cons_eq_if_modifyHead, hc, happend e he]

/-- An ending without a slash belongs to the last cut of a name. -/
theorem cuts_append (name : String) :
    ∃ init last, cuts name = init ++ [last] ∧
      ∀ ending : String, '/' ∉ ending.toList → cuts (name ++ ending) = init ++ [last ++ ending] := by
  obtain ⟨init, last, hsplit, happend⟩ := splitOn_append_last name.toList
  refine ⟨init.map String.ofList, String.ofList last, by simp [cuts, hsplit], ?_⟩
  intro ending hending
  have hlast : String.ofList (last ++ ending.toList) = String.ofList last ++ ending := by
    simp [String.ofList_append]
  simp [cuts, happend _ hending, hlast]

/-- The ending of the name of the second file. -/
def ending : String := ".tmp"

theorem append_ending_ne (s t : String) (ht : t.length < ending.length) : s ++ ending ≠ t := by
  intro h
  have hlen := congrArg String.length h
  simp only [String.length_append] at hlen
  omega

theorem isSelf_append_ending (s : String) : isSelf (s ++ ending) = false := by
  simp [isSelf, append_ending_ne s "" (by decide), append_ending_ne s "." (by decide)]

/-- If the second name leads somewhere, so does the first, and to another path. A first name that
can stand for a directory only then leads to one. -/
theorem locate_beside {fs : Files} {name : String} {s : Path}
    (h : fs.locate (name ++ ending) = .ok s) (hname : name ≠ "") :
    ∃ p, fs.locate name = .ok p ∧ p ≠ s ∧
      (isOfDirectory name = true → fs.find? p = some .directory) := by
  obtain ⟨init, last, hcuts, happend⟩ := cuts_append name
  have hsteps : stepsOf (name ++ ending) =
      init.filter (fun s => !isSelf s) ++ [last ++ ending] := by
    simp [stepsOf, happend ending (by decide), isSelf_append_ending]
  obtain ⟨-, hnul, hsize, hwalk'⟩ := locate_ok_iff.mp h
  have hnul' : '\x00' ∉ name.toList := by
    rw [String.toList_append, List.mem_append] at hnul
    exact fun hmem => hnul (Or.inl hmem)
  have hsize' : name.utf8ByteSize ≤ maxName := by
    rw [String.utf8ByteSize_append] at hsize
    omega
  rw [hsteps] at hwalk'
  obtain ⟨d, hd, hwalk, rfl, hlast, hnext⟩ :=
    walk_through (append_ending_ne last ".." (by decide)) (through_root fs) hwalk'
  cases hself : isSelf last with
  | true =>
    have hsame : fs.walk [] (stepsOf name) = .ok d := by
      simpa [stepsOf, hcuts, hself] using hwalk
    exact ⟨d, locate_ok_iff.mpr ⟨hname, hnul', hsize', hsame⟩, by simp,
      fun _ => hd d (List.prefix_refl d)⟩
  | false =>
    have hlast' : last.utf8ByteSize ≤ maxStep := by
      rw [String.utf8ByteSize_append] at hlast
      omega
    have hother : fs.walk [] (stepsOf name) =
        .ok (if last = ".." then d.dropLast else d ++ [last]) := by
      simpa [stepsOf, hcuts, hself] using hnext last hlast'
    refine ⟨_, locate_ok_iff.mpr ⟨hname, hnul', hsize', hother⟩, ?_, fun hdir => ?_⟩
    · split
      · intro heq
        have hlen := congrArg List.length heq
        simp only [List.length_dropLast, List.length_append, List.length_singleton] at hlen
        omega
      · intro heq
        have hlen := congrArg String.length (List.append_cancel_left heq |> List.singleton_inj.mp)
        simp [ending] at hlen
    · simp [isOfDirectory, hcuts, hself] at hdir

theorem lookup_eq {fs : Files} {name : String} {p : Path} (h : fs.locate name = .ok p) :
    fs.lookup name =
      match fs.find? p with
      | some (.file content) =>
        if isOfDirectory name then .error .notDirectory else .ok (p, some (Entry.file content))
      | e => .ok (p, e) := by
  unfold lookup
  rw [h]
  change (match fs.find? p with
    | some (Entry.file content) =>
      if isOfDirectory name = true then throw Fault.notDirectory
      else Except.ok (p, some (Entry.file content))
    | e => Except.ok (p, e)) = _
  cases fs.find? p with
  | none => rfl
  | some e => cases e <;> rfl

theorem locate_of_lookup {fs : Files} {name : String} {p : Path} {e : Option Entry}
    (h : fs.lookup name = .ok (p, e)) : fs.locate name = .ok p ∧ fs.find? p = e := by
  cases hl : fs.locate name with
  | error f => simp [lookup, hl, bind, Except.bind] at h
  | ok q =>
    rw [lookup_eq hl] at h
    split at h
    · split at h
      · cases h
      · cases h
        exact ⟨rfl, ‹_›⟩
    · cases h
      exact ⟨rfl, rfl⟩

theorem write_ok {fs fs' : Files} {name : String} {c : Bytes} (h : fs.write name c = .ok fs') :
    ∃ p, fs.locate name = .ok p ∧ fs.find? p ≠ some .directory ∧ isOfDirectory name = false ∧
      fs' = fs.put p (.file c) := by
  unfold write at h
  split at h
  · cases h
  · rename_i p e hne hlookup
    split at h
    · cases h
    · rename_i hdir
      cases h
      obtain ⟨hlocate, rfl⟩ := locate_of_lookup hlookup
      exact ⟨p, hlocate, fun hd => hne hd, by simpa using hdir, rfl⟩
  · cases h

/-- What has been written is there. -/
theorem lookup_write {fs fs' : Files} {name : String} {c : Bytes}
    (h : fs.write name c = .ok fs') : ∃ p, fs'.lookup name = .ok (p, some (.file c)) := by
  obtain ⟨p, hlocate, hentry, hdir, rfl⟩ := write_ok h
  have hne : p ≠ [] := by
    rintro rfl
    exact hentry (by simp [find?])
  refine ⟨p, ?_⟩
  rw [lookup_eq (locate_congr (sameDirectories_put hentry) hlocate), find?_put_self hne]
  simp [hdir]

/-- Writing the second file leaves the first one as it is. -/
theorem lookup_write_beside {fs fs' : Files} {name : String} {c : Bytes}
    (h : fs.write (name ++ ending) c = .ok fs') : fs'.lookup name = fs.lookup name := by
  obtain ⟨s, hlocate, hentry, _, rfl⟩ := write_ok h
  by_cases hname : name = ""
  · subst hname
    rfl
  · obtain ⟨p, hp, hne, _⟩ := locate_beside hlocate hname
    rw [lookup_eq hp, lookup_eq (locate_congr (sameDirectories_put hentry) hp),
      find?_put_of_ne hne]

theorem sameDirectories_write {fs fs' : Files} {name : String} {c : Bytes}
    (h : fs.write name c = .ok fs') : SameDirectories fs fs' := by
  obtain ⟨p, -, hentry, -, rfl⟩ := write_ok h
  exact sameDirectories_put hentry

theorem sameDirectories_replace {fs fs' : Files} {source target : String}
    (h : fs.replace source target = .ok fs') : SameDirectories fs fs' := by
  unfold Files.replace at h
  split at h
  · rename_i s c p e hs hp
    split at h
    · cases h
    · rename_i hdir
      cases h
      obtain ⟨-, hfile⟩ := locate_of_lookup hs
      obtain ⟨-, rfl⟩ := locate_of_lookup hp
      have herase : SameDirectories fs (fs.erase s) := sameDirectories_erase (by simp [hfile])
      exact herase.trans (sameDirectories_put fun hfound => hdir ((herase p).mpr hfound))
  all_goals cases h

/-- A replacement that succeeded has given the first file the content of the second. -/
theorem lookup_replace {fs fs' : Files} {name : String}
    (h : fs.replace (name ++ ending) name = .ok fs') :
    ∃ c p, fs.read (name ++ ending) = .ok c ∧ fs'.lookup name = .ok (p, some (.file c)) := by
  have same := sameDirectories_replace h
  unfold replace at h
  split at h
  · rename_i s c p e hs hp
    split at h
    · cases h
    · rename_i hdir
      cases h
      obtain ⟨hlocS, -⟩ := locate_of_lookup hs
      obtain ⟨hlocP, rfl⟩ := locate_of_lookup hp
      have hname : name ≠ "" := by
        rintro rfl
        cases hlocP
      obtain ⟨q, hq, hne, hofdir⟩ := locate_beside hlocS hname
      obtain rfl : p = q := by
        rw [hlocP] at hq
        exact Except.ok.inj hq
      have hroot : p ≠ [] := by
        rintro rfl
        exact hdir (by simp [find?])
      refine ⟨c, p, by simp [read, hs], ?_⟩
      rw [lookup_eq (locate_congr same hlocP), find?_put_self hroot]
      cases hofd : isOfDirectory name with
      | true => exact absurd (hofdir hofd) hdir
      | false => rfl
  · cases h
  · cases h
  · cases h
  · cases h

/-! ### Names that take a file -/

/-- A name under which a file can be written. -/
def Takes (fs : Files) (name : String) : Prop :=
  ∃ p, fs.locate name = .ok p ∧ fs.find? p ≠ some .directory ∧ isOfDirectory name = false

theorem takes_of_lookup {fs : Files} {name : String} {p : Path} {content : Bytes}
    (h : fs.lookup name = .ok (p, some (.file content))) : fs.Takes name := by
  obtain ⟨hlocate, hentry⟩ := locate_of_lookup h
  refine ⟨p, hlocate, by simp [hentry], Bool.eq_false_iff.mpr fun hdir => ?_⟩
  rw [lookup_eq hlocate, hentry] at h
  simp [hdir] at h

theorem Takes.congr {fs fs' : Files} {name : String} (same : SameDirectories fs fs')
    (h : fs.Takes name) : fs'.Takes name := by
  obtain ⟨p, hlocate, hentry, hdir⟩ := h
  exact ⟨p, locate_congr same hlocate, fun hfound => hentry ((same p).mpr hfound), hdir⟩

/-- What a name that takes a file stands for: a file or nothing. -/
theorem Takes.lookup {fs : Files} {name : String} (h : fs.Takes name) :
    ∃ p e, fs.lookup name = .ok (p, e) ∧ e ≠ some .directory := by
  obtain ⟨p, hlocate, hentry, hdir⟩ := h
  refine ⟨p, fs.find? p, ?_, hentry⟩
  rw [lookup_eq hlocate]
  split
  · rename_i content hfile
    rw [hdir, hfile]
    rfl
  · rfl

theorem Takes.write {fs : Files} {name : String} (h : fs.Takes name) (c : Bytes) :
    ∃ fs', fs.write name c = .ok fs' := by
  obtain ⟨p, e, hlookup, hentry⟩ := h.lookup
  obtain ⟨-, -, -, hdir⟩ := h
  unfold Files.write
  rw [hlookup]
  cases e with
  | none => simp [hdir]
  | some e =>
    cases e with
    | directory => exact absurd rfl hentry
    | file content => simp [hdir]

theorem lookup_of_read {fs : Files} {name : String} {content : Bytes}
    (h : fs.read name = .ok content) : ∃ p, fs.lookup name = .ok (p, some (.file content)) := by
  unfold Files.read at h
  split at h
  · rename_i p found hlookup
    cases h
    exact ⟨p, hlookup⟩
  all_goals cases h

/-- A file can be given any name that takes one. -/
theorem Takes.replace {fs : Files} {source target : String} {content : Bytes}
    (h : fs.Takes target) (hsource : fs.read source = .ok content) :
    ∃ fs', fs.replace source target = .ok fs' := by
  obtain ⟨s, hs⟩ := lookup_of_read hsource
  obtain ⟨p, e, hp, hentry⟩ := h.lookup
  unfold Files.replace
  rw [hs, hp]
  simp [hentry]

end ChainIndexer.Files
