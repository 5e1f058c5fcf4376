import ChainIndexer.Proofs.Course
import ChainIndexer.Proofs.DedupeKey

/-!
What is left of the accepted payloads when a receiver drops those whose key it has seen before. A
page that is delivered again may be cut off elsewhere than the first time, and may be longer or
shorter. But whatever was accepted of it continues the keys that the committed cursor has consumed,
and so do the keys that were accepted before; of two beginnings of one list, one begins with the
other (`redelivered`). `Always` is the property that every account of a run has at every moment; a
step that breaks down anywhere keeps it (`Always.broken`), and so does one that commits
(`Always.committed`). That the keys of a ledger differ is not shown here.
-/

namespace ChainIndexer

open Push

/-! ### First occurrences -/

section FirstOccurrences

variable {α : Type} [BEq α] [LawfulBEq α] {l old new : List α}

theorem eraseDups_of_nodup (h : l.Nodup) : l.eraseDups = l := by
  induction l with
  | nil => rfl
  | cons a rest ih =>
    obtain ⟨ha, hrest⟩ := List.nodup_cons.mp h
    have hkept : rest.filter (fun b => !b == a) = rest := by
      rw [List.filter_eq_self]
      intro b hb
      have hne : b ≠ a := fun heq => ha (heq ▸ hb)
      simpa using hne
    rw [List.eraseDups_cons, hkept, ih hrest]

/-- Of what is appended, only what is new remains. -/
theorem eraseDups_append_of_new (hold : ∀ a ∈ old, a ∈ l) (hnew : new.Nodup)
    (hdisjoint : ∀ a ∈ new, a ∉ l) :
    (l ++ (old ++ new)).eraseDups = l.eraseDups ++ new := by
  have hdropped : (old ++ new).removeAll l = new := by
    have hold' : old.filter (fun a => !l.elem a) = [] := by
      rw [List.filter_eq_nil_iff]
      intro a ha
      simpa using hold a ha
    have hnew' : new.filter (fun a => !l.elem a) = new := by
      rw [List.filter_eq_self]
      intro a ha
      simpa using hdisjoint a ha
    unfold List.removeAll
    rw [List.filter_append, hold', hnew', List.nil_append]
  rw [List.eraseDups_append, hdropped, eraseDups_of_nodup hnew]

/-- What is accepted again behind some consumed elements of a list without repetition leaves the
first occurrences a beginning of the list, which holds all that was accepted now. -/
theorem redelivered {seen consumed again ledger : List α} (hledger : ledger.Nodup)
    (hseen : seen.eraseDups <+: ledger) (hconsumed : consumed <+: seen.eraseDups)
    (hagain : consumed ++ again <+: ledger) :
    (seen ++ again).eraseDups <+: ledger ∧ consumed ++ again <+: (seen ++ again).eraseDups := by
  rcases List.prefix_or_prefix_of_prefix hagain hseen with hshort | ⟨new, hlong⟩
  · -- everything was accepted before
    have hold : ∀ a ∈ again, a ∈ seen := by
      intro a ha
      exact List.mem_eraseDups.mp (hshort.subset (List.mem_append_right _ ha))
    have hsame : (seen ++ again).eraseDups = seen.eraseDups := by
      have h : (seen ++ (again ++ [])).eraseDups = seen.eraseDups ++ [] :=
        eraseDups_append_of_new hold List.nodup_nil (by simp)
      simpa using h
    rw [hsame]
    exact ⟨hseen, hshort⟩
  · -- what was accepted before is a part of it
    obtain ⟨old, hold⟩ := hconsumed
    have hagain' : again = old ++ new := by
      rw [← hold, List.append_assoc] at hlong
      exact (List.append_cancel_left hlong).symm
    have hnodup : (seen.eraseDups ++ new).Nodup := by
      rw [hlong]
      exact hagain.sublist.nodup hledger
    obtain ⟨-, hnew, hdisjoint⟩ := List.nodup_append.mp hnodup
    have hsame : (seen ++ again).eraseDups = seen.eraseDups ++ new := by
      rw [hagain']
      refine eraseDups_append_of_new (fun a ha => ?_) hnew fun a ha hseen => ?_
      · exact List.mem_eraseDups.mp (hold ▸ List.mem_append_right _ ha)
      · exact hdisjoint a (List.mem_eraseDups.mpr hseen) a ha rfl
    rw [hsame, hlong]
    exact ⟨hagain, List.prefix_refl _⟩

end FirstOccurrences

/-! ### Accounts of deliveries -/

/-- The key of the payload that was accepted, if one was. -/
def Incident.acceptedKey? : Incident → Option String
  | .accepted p => some p.dedupeKey
  | _ => none

/-- The keys of the accepted payloads, in order. -/
def acceptedKeys (es : List Incident) : List String :=
  es.filterMap Incident.acceptedKey?

/-- The keys of the accepted payloads, each at its first occurrence. -/
def firstKeys (es : List Incident) : List String :=
  (acceptedKeys es).eraseDups

/-- The cursor that is committed after an incident. -/
def committedAfter (cursor : Cursor) : Incident → Cursor
  | .stored content =>
    match Checkpoint.ofBytes content with
    | .ok next => next
    | .error _ => cursor
  | _ => cursor

/-- The cursor that is committed after a number of incidents, of which none is before them. -/
def committedIn (es : List Incident) : Cursor :=
  es.foldl committedAfter .start

/-- The payloads of a job have the keys that the ledger gives it. -/
def Yields (keys : Job → List String) (j : Job) (payloads : List Payload) : Prop :=
  payloads.map Payload.dedupeKey = keys j

theorem acceptedKeys_append (es es' : List Incident) :
    acceptedKeys (es ++ es') = acceptedKeys es ++ acceptedKeys es' :=
  List.filterMap_append

theorem firstKeys_append (es es' : List Incident) :
    firstKeys (es ++ es') = (acceptedKeys es ++ acceptedKeys es').eraseDups := by
  rw [firstKeys, acceptedKeys_append]

theorem acceptedKeys_of_silent {es : List Incident} (h : ∀ e ∈ es, IsSilent e) :
    acceptedKeys es = [] := by
  rw [acceptedKeys, List.filterMap_eq_nil_iff]
  intro e he
  cases e with
  | accepted p => exact absurd (h _ he) id
  | _ => rfl

theorem acceptedKeys_map (payloads : List Payload) :
    acceptedKeys (payloads.map .accepted) = payloads.map Payload.dedupeKey := by
  induction payloads with
  | nil => rfl
  | cons p rest ih =>
    change p.dedupeKey :: acceptedKeys (rest.map .accepted) = _
    rw [ih, List.map_cons]

/-- The cursor stays while none is stored. -/
theorem committedIn_append {es new : List Incident} (h : ∀ e ∈ new, ∀ content, e ≠ .stored content) :
    committedIn (es ++ new) = committedIn es := by
  unfold committedIn
  rw [List.foldl_append]
  generalize es.foldl committedAfter .start = cursor
  induction new with
  | nil => rfl
  | cons e rest ih =>
    have hsame : committedAfter cursor e = cursor := by
      cases e with
      | stored content => exact absurd rfl (h _ (by simp) content)
      | _ => rfl
    rw [List.foldl_cons, hsame]
    exact ih fun e he => h e (List.mem_cons_of_mem _ he)

theorem committedIn_stored {es : List Incident} {content : Bytes} {next : Cursor}
    (h : Checkpoint.ofBytes content = .ok next) : committedIn (es ++ [.stored content]) = next := by
  simp [committedIn, committedAfter, h]

variable {P : Incident → Prop} {S : Job → List Payload → Prop} {keys : Job → List String}
  {jobs : List Job} {es : List Incident}

/-- The keys that were accepted of a delivery are a beginning of the keys of its jobs. -/
theorem Broken.keys_accepted (h : Broken IsSilent (Yields keys) jobs es) :
    acceptedKeys es <+: jobs.flatMap keys := by
  induction h with
  | asking hasks =>
    rw [acceptedKeys_of_silent hasks]
    exact List.nil_prefix
  | pushing hasks hpayloads htaken =>
    have hkeys := htaken.map Payload.dedupeKey
    rw [hpayloads] at hkeys
    rw [acceptedKeys_append, acceptedKeys_of_silent hasks, List.flatMap_cons]
    refine List.IsPrefix.trans ?_ (List.prefix_append _ _)
    rw [← acceptedKeys_map] at hkeys
    exact hkeys
  | @later j rest asks es payloads hasks hpayloads _ ih =>
    have hthese : acceptedKeys (.handled j payloads :: (payloads.map .accepted ++ es)) =
        keys j ++ acceptedKeys es := by
      change acceptedKeys (payloads.map .accepted ++ es) = _
      rw [acceptedKeys_append, acceptedKeys_map, hpayloads]
    rw [acceptedKeys_append, acceptedKeys_of_silent hasks, hthese, List.flatMap_cons,
      List.nil_append]
    exact (List.prefix_append_right_inj _).mpr ih

/-- A delivery that has come to its end has had all keys of its jobs accepted. -/
theorem Delivered.keys_accepted (h : Delivered P (Yields keys) jobs es)
    (hP : ∀ e, P e → IsSilent e) : acceptedKeys es = jobs.flatMap keys := by
  induction h with
  | nil => rfl
  | @cons j rest asks es payloads hasks hpayloads _ ih =>
    have hthese : acceptedKeys (.handled j payloads :: (payloads.map .accepted ++ es)) =
        keys j ++ acceptedKeys es := by
      change acceptedKeys (payloads.map .accepted ++ es) = _
      rw [acceptedKeys_append, acceptedKeys_map, hpayloads]
    rw [acceptedKeys_append, acceptedKeys_of_silent fun e he => hP e (hasks e he), hthese,
      List.flatMap_cons, ih, List.nil_append]

/-- No cursor is stored in a delivery. -/
theorem Broken.not_stored (h : Broken IsSilent S jobs es) :
    ∀ e ∈ es, ∀ content, e ≠ .stored content := by
  have hsilent : ∀ asks : List Incident, (∀ e ∈ asks, IsSilent e) →
      ∀ e ∈ asks, ∀ content, e ≠ .stored content := by
    rintro asks hasks e he content rfl
    exact hasks _ he
  induction h with
  | asking hasks => exact hsilent _ hasks
  | pushing hasks _ _ =>
    intro e he content
    rcases List.mem_append.mp he with he | he
    · exact hsilent _ hasks e he content
    · rintro rfl
      simp at he
  | later hasks _ _ ih =>
    intro e he content
    rcases List.mem_append.mp he with he | he
    · exact hsilent _ hasks e he content
    · rintro rfl
      exact ih _ (by simpa using he) content rfl

/-! ### Accounts of runs -/

/-- The keys that a receiver has kept are a beginning of those of the ledger, and they begin with
the ones that the committed cursor has consumed. `Behind` says which keys lie before a cursor. -/
structure Exact (Behind : Cursor → List String → Prop) (ledger : List String)
    (es : List Incident) (consumed : List String) : Prop where
  committed : Behind (committedIn es) consumed
  covers : consumed <+: firstKeys es
  beginning : firstKeys es <+: ledger

/-- An account that is exact at its end, and at every moment before. -/
structure Always (Behind : Cursor → List String → Prop) (ledger : List String)
    (es : List Incident) (consumed : List String) : Prop where
  last : Exact Behind ledger es consumed
  before : ∀ es', es' <+: es → ∃ consumed', Exact Behind ledger es' consumed'

section Always

variable {Behind Behind' : Cursor → List String → Prop} {ledger ledger' consumed : List String}

theorem Exact.mono (hBehind : ∀ cursor ks, Behind cursor ks → Behind' cursor ks)
    (hledger : ledger <+: ledger') (h : Exact Behind ledger es consumed) :
    Exact Behind' ledger' es consumed :=
  ⟨hBehind _ _ h.committed, h.covers, h.beginning.trans hledger⟩

/-- A ledger may grow. -/
theorem Always.mono (hBehind : ∀ cursor ks, Behind cursor ks → Behind' cursor ks)
    (hledger : ledger <+: ledger') (h : Always Behind ledger es consumed) :
    Always Behind' ledger' es consumed := by
  refine ⟨h.last.mono hBehind hledger, fun es' hes' => ?_⟩
  obtain ⟨consumed', hexact⟩ := h.before es' hes'
  exact ⟨consumed', hexact.mono hBehind hledger⟩

theorem Exact.start (hstart : Behind .start []) : Exact Behind ledger [] [] :=
  ⟨hstart, List.nil_prefix, List.nil_prefix⟩

theorem Always.start (hstart : Behind .start []) : Always Behind ledger [] [] := by
  refine ⟨Exact.start hstart, fun es' hes' => ⟨[], ?_⟩⟩
  rw [List.prefix_nil.mp hes']
  exact Exact.start hstart

/-- A delivery of the keys behind the consumed ones keeps an account exact, however far it comes. -/
theorem Exact.broken {new : List Incident} (hledger : ledger.Nodup)
    (h : Exact Behind ledger es consumed) (hpage : consumed ++ jobs.flatMap keys <+: ledger)
    (hnew : Broken IsSilent (Yields keys) jobs new) : Exact Behind ledger (es ++ new) consumed := by
  obtain ⟨more, hmore⟩ := hnew.keys_accepted
  have hagain : consumed ++ acceptedKeys new <+: ledger := by
    refine List.IsPrefix.trans ⟨more, ?_⟩ hpage
    rw [List.append_assoc, hmore]
  obtain ⟨hbeginning, hcovers⟩ := redelivered hledger h.beginning h.covers hagain
  refine ⟨?_, ?_, ?_⟩
  · rw [committedIn_append hnew.not_stored]
    exact h.committed
  · rw [firstKeys_append]
    exact (List.prefix_append _ _).trans hcovers
  · rw [firstKeys_append]
    exact hbeginning

/-- A step that breaks down keeps an account exact at every moment. -/
theorem Always.broken {new : List Incident} (hledger : ledger.Nodup)
    (h : Always Behind ledger es consumed) (hpage : consumed ++ jobs.flatMap keys <+: ledger)
    (hnew : Broken IsSilent (Yields keys) jobs new) :
    Always Behind ledger (es ++ new) consumed := by
  refine ⟨h.last.broken hledger hpage hnew, fun es' hes' => ?_⟩
  rcases prefix_append_cases hes' with hes' | ⟨new', hnew', rfl⟩
  · exact h.before es' hes'
  · exact ⟨consumed, h.last.broken hledger hpage (hnew.of_prefix hnew')⟩

/-- A step that commits its page keeps an account exact at every moment, and consumes the keys of
the page. -/
theorem Always.committed {first new : List Incident} {content : Bytes} {next : Cursor}
    (hledger : ledger.Nodup) (h : Always Behind ledger es consumed)
    (hpage : consumed ++ jobs.flatMap keys <+: ledger) (hfirst : ∀ e ∈ first, IsSilent e)
    (hP : ∀ e, P e → IsSilent e) (hnew : Delivered P (Yields keys) jobs new)
    (hcontent : Checkpoint.ofBytes content = .ok next)
    (hnext : Behind next (consumed ++ jobs.flatMap keys)) :
    Always Behind ledger (es ++ (first ++ new ++ [.stored content]))
      (consumed ++ jobs.flatMap keys) := by
  have hbroken : Broken IsSilent (Yields keys) jobs (first ++ new) :=
    (hnew.broken.mono hP fun _ _ _ => id).behind hfirst
  have hdelivery := h.broken hledger hpage hbroken
  have hall : acceptedKeys (first ++ new) = jobs.flatMap keys := by
    rw [acceptedKeys_append, acceptedKeys_of_silent hfirst, hnew.keys_accepted hP, List.nil_append]
  have hlast : Exact Behind ledger (es ++ (first ++ new) ++ [.stored content])
      (consumed ++ jobs.flatMap keys) := by
    have hkeys : firstKeys (es ++ (first ++ new) ++ [.stored content]) =
        firstKeys (es ++ (first ++ new)) := by
      rw [firstKeys_append]
      exact congrArg List.eraseDups (List.append_nil _)
    refine ⟨?_, ?_, ?_⟩
    · rw [committedIn_stored hcontent]
      exact hnext
    · rw [← hall] at hpage ⊢
      obtain ⟨-, hcovers⟩ := redelivered hledger h.last.beginning h.last.covers hpage
      rw [hkeys, firstKeys_append]
      exact hcovers
    · rw [hkeys]
      exact hdelivery.last.beginning
  rw [← List.append_assoc es]
  refine ⟨hlast, fun es' hes' => ?_⟩
  rcases List.prefix_concat_iff.mp hes' with rfl | hes'
  · exact ⟨_, hlast⟩
  · exact hdelivery.before es' hes'

/-- A run whose account is exact at every moment and ends with the stored cursor. -/
structure Delivering {μ : Type} (ck : Checkpoint) (Behind : Cursor → List String → Prop)
    (ledger : List String) (r : Course μ) (consumed : List String) : Prop where
  stored : ck.stored r.world.files = .ok (committedIn r.events)
  always : Always Behind ledger r.events consumed

variable {μ : Type} {ck : Checkpoint} {r r' : Course μ} {m : μ} {w : World}
  {result : Except Failure Nat}

theorem Delivering.mono (hBehind : ∀ cursor ks, Behind cursor ks → Behind' cursor ks)
    (hledger : ledger <+: ledger') (h : Delivering ck Behind ledger r consumed) :
    Delivering ck Behind' ledger' r consumed :=
  ⟨h.stored, h.always.mono hBehind hledger⟩

theorem Delivering.restart (fresh : μ) (h : Delivering ck Behind ledger r consumed) :
    Delivering ck Behind ledger (r.restart fresh) consumed :=
  ⟨h.stored, h.always⟩

/-- A step that breaks down leaves a run delivering. -/
theorem Delivering.broken (hr : r' = ⟨m, w, r.visits ++ [⟨result, w.events⟩]⟩)
    (hledger : ledger.Nodup) (h : Delivering ck Behind ledger r consumed)
    (hpage : consumed ++ jobs.flatMap keys <+: ledger)
    (hnew : Broken IsSilent (Yields keys) jobs w.events)
    (hstored : ck.stored w.files = ck.stored r.world.files) :
    Delivering ck Behind ledger r' consumed := by
  subst hr
  have haccount : Course.events ⟨m, w, r.visits ++ [⟨result, w.events⟩]⟩ = r.events ++ w.events :=
    Course.events_append
  refine ⟨?_, ?_⟩
  · rw [haccount, committedIn_append hnew.not_stored]
    exact hstored.trans h.stored
  · rw [haccount]
    exact h.always.broken hledger hpage hnew

/-- A step that commits its page leaves a run delivering. -/
theorem Delivering.committed {first new : List Incident} {content : Bytes} {next : Cursor}
    (hr : r' = ⟨m, w, r.visits ++ [⟨result, w.events⟩]⟩) (hledger : ledger.Nodup)
    (h : Delivering ck Behind ledger r consumed)
    (hpage : consumed ++ jobs.flatMap keys <+: ledger) (hfirst : ∀ e ∈ first, IsSilent e)
    (hP : ∀ e, P e → IsSilent e) (hnew : Delivered P (Yields keys) jobs new)
    (hevents : w.events = first ++ new ++ [.stored content])
    (hcontent : Checkpoint.ofBytes content = .ok next)
    (hstored : ck.stored w.files = .ok next)
    (hnext : Behind next (consumed ++ jobs.flatMap keys)) :
    Delivering ck Behind ledger r' (consumed ++ jobs.flatMap keys) := by
  subst hr
  have haccount : Course.events ⟨m, w, r.visits ++ [⟨result, w.events⟩]⟩ =
      r.events ++ (first ++ new ++ [.stored content]) := by
    rw [Course.events_append, ← hevents]
    rfl
  refine ⟨?_, ?_⟩
  · rw [haccount, ← List.append_assoc, committedIn_stored hcontent]
    exact hstored
  · rw [haccount]
    exact h.always.committed hledger hpage hfirst hP hnew hcontent hnext

end Always

/-- Exactly-once delivery, in order, up to a moment: the keys that a receiver has kept are a
beginning of those of the ledger without repetition, and all keys that the committed cursor has
consumed are among them. -/
structure ExactlyOnce (ledger : List String) (consumed : Cursor → List String)
    (es : List Incident) : Prop where
  beginning : firstKeys es <+: ledger
  distinct : (firstKeys es).Nodup
  complete : ∀ key ∈ consumed (committedIn es), key ∈ firstKeys es

/-- An exact account, if the keys before a cursor are known. -/
theorem Exact.exactlyOnce {Behind : Cursor → List String → Prop} {ledger ks : List String}
    {consumed : Cursor → List String} (hledger : ledger.Nodup)
    (hconsumed : ∀ cursor ks, Behind cursor ks → consumed cursor = ks)
    (h : Exact Behind ledger es ks) : ExactlyOnce ledger consumed es := by
  refine ⟨h.beginning, h.beginning.sublist.nodup hledger, fun key hkey => ?_⟩
  rw [hconsumed _ _ h.committed] at hkey
  exact h.covers.subset hkey

/-- A run that delivers has delivered exactly once at every moment. -/
theorem Delivering.exactlyOnce {μ : Type} {ck : Checkpoint}
    {Behind : Cursor → List String → Prop} {ledger ks : List String} {r : Course μ}
    {consumed : Cursor → List String} (hledger : ledger.Nodup)
    (hconsumed : ∀ cursor ks, Behind cursor ks → consumed cursor = ks)
    (h : Delivering ck Behind ledger r ks) {es : List Incident} (hes : es <+: r.events) :
    ExactlyOnce ledger consumed es := by
  obtain ⟨ks', hexact⟩ := h.always.before es hes
  exact hexact.exactlyOnce hledger hconsumed

end ChainIndexer
