import AggroApp.Model.Net
import Mathlib.Data.List.Sort

/-!
# AggroApp — uploads that overtake each other

`updateProfileImage` is a chain of three calls: the upload, its download URL and
the update of the document. Nothing orders one chain against another, so of
several pictures picked in a row the one whose update comes last stays, and not
the one that was picked last.

* `slowUpload_overtaken`  — two picks, all steps succeed, and the first one stays.
* `last_update_wins`      — what the document holds after any interleaving.
-/

namespace AggroApp

open Async

variable {κ υ ι : Type}

/-- The field `profileImageUrl` of the document of `uid`. -/
def profileImageUrl (b : Backend) (uid : Uid) : Option Value :=
  (b.users uid).bind fun doc => doc "profileImageUrl"

/-- Notes on the calls of `updateProfileImage`, which are numbered as they start:
whose picture was stored, the URL of each, and whose update was carried out, in
the order of the updates. -/
structure Pictures where
  stored : List ℕ
  url : ℕ → Option String
  updated : List ℕ

namespace Pictures

def blank : Pictures := ⟨[], fun _ => none, []⟩

/-- Take notes of one event. -/
def observe (n : Net κ υ ι) (e : Net.Event κ υ ι) (p : Pictures) : Pictures :=
  match e with
  | .perform i outcome =>
    match n.tasks[i]?, outcome with
    | some (.waiting (.putData _ _ _)), .url _ => { p with stored := p.stored ++ [i] }
    | some (.waiting (.downloadURL _ _)), .url url =>
      { p with url := Function.update p.url i (some url) }
    | some (.waiting (.updateData _ _ _)), .success => { p with updated := p.updated ++ [i] }
    | _, _ => p
  | _ => p

/-- All steps of call `i` have succeeded. -/
def succeeded (p : Pictures) (i : ℕ) : Bool :=
  p.stored.contains i && (p.url i).isSome && p.updated.contains i

/-- The latest-started of the first `count` calls whose steps all succeeded. -/
def latestStarted (p : Pictures) (count : ℕ) : Option ℕ :=
  ((List.range count).filter p.succeeded).getLast?

/-- The URL of call `i`, or what was there when there is no such call. -/
def shown (p : Pictures) (initial : Option Value) : Option ℕ → Option Value
  | none => initial
  | some i => (p.url i).map Value.string

end Pictures

/-- A call of `updateProfileImage`, or a step of one. -/
def Net.Event.OfPictures : Net.Event κ υ ι → Prop
  | .call (.updateProfileImage _ _ _) => True
  | .perform _ _ => True
  | .deliver _ => True
  | _ => False

/-- The uploads under the session of `uid`, with notes. -/
def uploads (backend : Backend) : Net κ υ ι × Pictures := (Net.fresh backend, .blank)

/-- The document shows the picture of the call `winner` picks. -/
def Shows (uid : Uid) (initial : Option Value) (winner : Net κ υ ι × Pictures → Option ℕ)
    (s : Net κ υ ι × Pictures) : Prop :=
  profileImageUrl s.1.backend uid = s.2.shown initial (winner s)

instance (uid : Uid) (initial : Option Value) (winner : Net κ υ ι × Pictures → Option ℕ)
    (s : Net κ υ ι × Pictures) : Decidable (Shows uid initial winner s) :=
  inferInstanceAs (Decidable (_ = _))

-- ---------------------------------------------------------------------------
-- The slow upload
-- ---------------------------------------------------------------------------

/-- One account with a profile, signed in. -/
def oneAccount : Backend where
  accounts := [⟨"a", some "ann@mail"⟩]
  currentUser := some "a"
  users := Function.update (fun _ => none) "a"
    (some (profileValues "ann@mail" "Ann" "a.jpg" "a").document)
  images := fun _ => none
  database := fun _ => none

/-- Ann picks a picture and then another one; the upload of the first takes longer. -/
def slowUpload : List (Net.Event Unit Unit Unit) :=
  [.call (.updateProfileImage ⟨"first", true⟩ "1" ()),
   .call (.updateProfileImage ⟨"second", true⟩ "2" ()),
   .perform 1 (.url "2.jpg"), .deliver 1, .perform 1 (.url "2.jpg"), .deliver 1,
   .perform 1 .success, .deliver 1,
   .perform 0 (.url "1.jpg"), .deliver 0, .perform 0 (.url "1.jpg"), .deliver 0,
   .perform 0 .success, .deliver 0]

/-- Both calls are over, and the document shows the picture of the first. -/
theorem slowUpload_overtaken :
    ¬ ∀ (es : List (Net.Event Unit Unit Unit)) (s : Net Unit Unit Unit × Pictures),
      (∀ e ∈ es, e.OfPictures) →
      run (observed Net.step Pictures.observe) (uploads oneAccount) es = some s →
      (∀ task ∈ s.1.tasks, task = .ended) →
      Shows "a" (profileImageUrl oneAccount "a")
        (fun s => s.2.latestStarted s.1.tasks.length) s := by
  intro h
  have hPictures : ∀ e ∈ slowUpload, e.OfPictures := by
    simp [slowUpload, Net.Event.OfPictures]
  have hShows := h slowUpload _ hPictures rfl (by decide)
  exact absurd hShows (by decide)

-- ---------------------------------------------------------------------------
-- The calls in flight
-- ---------------------------------------------------------------------------

namespace Pictures

/-- The stages of call `i`. A URL is delivered once, before the update. -/
inductive Stage (uid : Uid) (p : Pictures) (i : ℕ) : Task κ υ ι → Prop
  | storing (filename : Filename) (data : JPEGData) (completion : ι) (hNew : i ∉ p.updated) :
    Stage uid p i (.waiting (.putData filename data (.updateProfileImage uid completion)))
  | stored (filename : Filename) (data : JPEGData) (completion : ι) (hNew : i ∉ p.updated) :
    Stage uid p i (.answered (.putData filename data (.updateProfileImage uid completion))
      (.wait (.downloadURL filename (.updateProfileImage uid completion))))
  | locating (filename : Filename) (completion : ι) (hNew : i ∉ p.updated) :
    Stage uid p i (.waiting (.downloadURL filename (.updateProfileImage uid completion)))
  | lost (filename : Filename) (completion : ι) :
    Stage uid p i (.answered (.downloadURL filename (.updateProfileImage uid completion)) .quit)
  | located (filename : Filename) (url : String) (completion : ι) (hUrl : p.url i = some url) :
    Stage uid p i (.answered (.downloadURL filename (.updateProfileImage uid completion))
      (.wait (.updateData uid [("profileImageUrl", .string url)]
        (.updateProfileImage url completion))))
  | updating (url : String) (completion : ι) (hUrl : p.url i = some url) :
    Stage uid p i (.waiting (.updateData uid [("profileImageUrl", .string url)]
      (.updateProfileImage url completion)))
  | updated (url : String) (completion : ι) :
    Stage uid p i (.answered (.updateData uid [("profileImageUrl", .string url)]
      (.updateProfileImage url completion)) (.uploaded completion url))
  | ended : Stage uid p i .ended

/-- What happens to other calls does not matter. -/
theorem Stage.mono {uid : Uid} {p p' : Pictures} {i : ℕ} {task : Task κ υ ι}
    (h : Stage uid p i task) (hUrl : p'.url i = p.url i)
    (hUpdated : i ∈ p'.updated → i ∈ p.updated) : Stage uid p' i task := by
  cases h with
  | storing filename data completion hNew =>
    exact .storing filename data completion fun hMem => hNew (hUpdated hMem)
  | stored filename data completion hNew =>
    exact .stored filename data completion fun hMem => hNew (hUpdated hMem)
  | locating filename completion hNew =>
    exact .locating filename completion fun hMem => hNew (hUpdated hMem)
  | lost filename completion => exact .lost filename completion
  | located filename url completion hSome =>
    exact .located filename url completion (hUrl.trans hSome)
  | updating url completion hSome => exact .updating url completion (hUrl.trans hSome)
  | updated url completion => exact .updated url completion
  | ended => exact .ended

/-- Every call is at one of its stages, and the document shows the picture of the
last update. -/
structure Sound (uid : Uid) (initial : Option Value) (s : Net κ υ ι × Pictures) : Prop where
  session : s.1.backend.currentUser = some uid
  stages : ∀ i task, s.1.tasks[i]? = some task → Stage uid s.2 i task
  started : ∀ i ∈ s.2.updated, i < s.1.tasks.length
  located : ∀ i ∈ s.2.updated, (s.2.url i).isSome = true
  shows : Shows uid initial (fun s => s.2.updated.getLast?) s

theorem sound_uploads {backend : Backend} {uid : Uid} (hSession : backend.currentUser = some uid) :
    Sound uid (profileImageUrl backend uid) (uploads backend : Net κ υ ι × Pictures) where
  session := hSession
  stages := fun i task hTask => absurd hTask (by simp [uploads, Net.fresh])
  started := fun i hMem => absurd hMem (by simp [uploads, blank])
  located := fun i hMem => absurd hMem (by simp [uploads, blank])
  shows := rfl

variable {uid : Uid} {initial : Option Value} {n : Net κ υ ι} {p : Pictures} {i : ℕ}

/-- A call that has no document update to make moves on, and its own URL may change. -/
theorem Sound.advance (h : Sound uid initial (n, p)) {backend : Backend} {p' : Pictures}
    {task : Task κ υ ι} (hSession : backend.currentUser = n.backend.currentUser)
    (hUsers : backend.users = n.backend.users) (hUpdated : p'.updated = p.updated)
    (hUrl : ∀ j ∈ p.updated, p'.url j = p.url j)
    (hOther : ∀ j ≠ i, p'.url j = p.url j) (hStage : Stage uid p' i task) :
    Sound uid initial (⟨backend, n.tasks.set i task⟩, p') := by
  obtain ⟨hUid, hStages, hStarted, hLocated, hShows⟩ := h
  refine ⟨hSession.trans hUid, fun j task' hTask => ?_, fun j hMem => ?_, fun j hMem => ?_, ?_⟩
  · rcases getElem?_set_cases hTask with ⟨rfl, rfl⟩ | ⟨hNe, hOld⟩
    · exact hStage
    · exact (hStages j task' hOld).mono (hOther j hNe) fun hMem => hUpdated ▸ hMem
  · rw [List.length_set]
    exact hStarted j (hUpdated ▸ hMem)
  · have hOld : j ∈ p.updated := hUpdated ▸ hMem
    rw [hUrl j hOld]
    exact hLocated j hOld
  · have hField : profileImageUrl backend uid = p.shown initial p.updated.getLast? := by
      rw [profileImageUrl, hUsers]
      exact hShows
    have hShown : p'.shown initial p'.updated.getLast? = p.shown initial p.updated.getLast? := by
      rw [hUpdated]
      cases hLast : p.updated.getLast? with
      | none => rfl
      | some j => rw [shown, shown, hUrl j (List.mem_of_getLast? hLast)]
    exact hField.trans hShown.symm

/-- The update of call `i` is carried out. -/
theorem Sound.update (h : Sound uid initial (n, p)) {url : String} {completion : ι} {doc : Document}
    (hTask : n.tasks[i]? = some (.waiting (.updateData uid [("profileImageUrl", .string url)]
      (.updateProfileImage url completion)))) (hUrl : p.url i = some url)
    {backend : Backend} (hSession : backend.currentUser = n.backend.currentUser)
    (hUsers : backend.users = Function.update n.backend.users uid
      (some (doc.merge [("profileImageUrl", .string url)]))) :
    Sound uid initial (⟨backend, n.tasks.set i (.answered (.updateData uid
      [("profileImageUrl", .string url)] (.updateProfileImage url completion))
      (.uploaded completion url))⟩, { p with updated := p.updated ++ [i] }) := by
  obtain ⟨hUid, hStages, hStarted, hLocated, hShows⟩ := h
  refine ⟨hSession.trans hUid, fun j task' hTask' => ?_, ?_, ?_, ?_⟩
  · rcases getElem?_set_cases hTask' with ⟨rfl, rfl⟩ | ⟨hNe, hOld⟩
    · exact .updated url completion
    · refine (hStages j task' hOld).mono rfl fun hMem => ?_
      rcases List.mem_append.mp hMem with hMem | hMem
      · exact hMem
      · exact absurd (List.mem_singleton.mp hMem) hNe
  · refine forall_mem_concat (fun j hMem => ?_) ?_
    · rw [List.length_set]
      exact hStarted j hMem
    · rw [List.length_set]
      exact (List.getElem?_eq_some_iff.mp hTask).1
  · exact forall_mem_concat hLocated (by rw [hUrl]; rfl)
  · have hLast : (p.updated ++ [i]).getLast? = some i := List.getLast?_concat
    show profileImageUrl backend uid =
      shown { p with updated := p.updated ++ [i] } initial (p.updated ++ [i]).getLast?
    rw [profileImageUrl, hUsers, Function.update_self, hLast, shown, hUrl]
    rfl

theorem Sound.perform (h : Sound uid initial (n, p)) {n' : Net κ υ ι} {outcome : Outcome}
    (hStep : n.perform i outcome = some n') :
    Sound uid initial (n', observe n (.perform i outcome) p) := by
  obtain ⟨call, step, hTask, hAnswered, hTasks⟩ := Net.perform_eq_some hStep
  have hNet : n' = ⟨n'.backend, n.tasks.set i (.answered call step)⟩ := by rw [← hTasks]
  rw [hNet]
  generalize n'.backend = backend at hAnswered
  have hStage := h.stages i _ hTask
  simp only [observe, hTask]
  cases hStage with
  | storing filename data completion hNew =>
    cases hAnswered with
    | storeFailed _ _ _ error =>
      exact h.advance rfl rfl rfl (fun _ _ => rfl) (fun _ _ => rfl)
        (.stored filename data completion hNew)
    | stored _ _ _ url =>
      exact h.advance rfl rfl rfl (fun _ _ => rfl) (fun _ _ => rfl)
        (.stored filename data completion hNew)
  | locating filename completion hNew =>
    cases hAnswered with
    | locateFailed _ _ error =>
      exact h.advance rfl rfl rfl (fun _ _ => rfl) (fun _ _ => rfl) (.lost filename completion)
    | located _ _ image hImage =>
      refine h.advance rfl rfl rfl (fun j hMem => ?_) (fun j hNe => ?_)
        (.located filename image.url completion (Function.update_self ..))
      · -- this call has not made its update yet
        have hNe : j ≠ i := by
          rintro rfl
          exact hNew hMem
        exact Function.update_of_ne hNe _ _
      · exact Function.update_of_ne hNe _ _
  | updating url completion hUrl =>
    cases hAnswered with
    | updateFailed _ _ _ error =>
      exact h.advance rfl rfl rfl (fun _ _ => rfl) (fun _ _ => rfl) (.updated url completion)
    | updated _ _ _ doc hDoc => exact h.update hTask hUrl rfl rfl

theorem Sound.deliver (h : Sound uid initial (n, p)) {n' : Net κ υ ι} {step : Step κ υ ι}
    (hStep : n.deliver i = some (n', step)) : Sound uid initial (n', p) := by
  obtain ⟨call, hTask, hBackend, hTasks⟩ := Net.deliver_eq_some hStep
  have hNet : n' = ⟨n.backend, n.tasks.set i (Task.ofStep step)⟩ := by rw [← hTasks, ← hBackend]
  rw [hNet]
  refine h.advance rfl rfl rfl (fun _ _ => rfl) (fun _ _ => rfl) ?_
  cases h.stages i _ hTask with
  | stored filename data completion hNew => exact .locating filename completion hNew
  | lost filename completion => exact .ended
  | located filename url completion hUrl => exact .updating url completion hUrl
  | updated url completion => exact .ended

theorem Sound.call (h : Sound uid initial (n, p)) (image : UIImage) (filename : Filename)
    (completion : ι) :
    Sound uid initial (n.call (.updateProfileImage image filename completion), p) := by
  obtain ⟨hUid, hStages, hStarted, hLocated, hShows⟩ := h
  have hUid' : n.backend.currentUser = some uid := hUid
  have hNew : n.tasks.length ∉ p.updated := fun hMem => Nat.lt_irrefl _ (hStarted _ hMem)
  refine ⟨hUid, fun j task hTask => ?_, fun j hMem => ?_, hLocated, hShows⟩
  · rcases getElem?_concat_cases hTask with ⟨rfl, rfl⟩ | hOld
    · rw [hUid', Operation.start, Service.updateProfileImage]
      cases image.jpegData 30 with
      | none => exact .ended
      | some imageData => exact .storing filename imageData completion hNew
    · exact hStages j task hOld
  · have hLength : (n.call (.updateProfileImage image filename completion)).tasks.length =
        n.tasks.length + 1 := List.length_append
    have hOld : j < n.tasks.length := hStarted j hMem
    show j < (n.call _).tasks.length
    omega

/-- Updates that are carried out in the order in which their calls were started
leave the latest-started call as the last one. -/
theorem Sound.inOrder (h : Sound uid initial (n, p)) (hOrder : p.updated.Pairwise (· < ·))
    (hStored : ∀ i ∈ p.updated, i ∈ p.stored) :
    p.latestStarted n.tasks.length = p.updated.getLast? := by
  have hSucceeded : ∀ i, p.succeeded i = true ↔ i ∈ p.updated := by
    intro i
    rw [succeeded, Bool.and_eq_true, Bool.and_eq_true, List.contains_iff_mem,
      List.contains_iff_mem]
    exact ⟨fun h => h.2, fun hMem => ⟨⟨hStored i hMem, h.located i hMem⟩, hMem⟩⟩
  have hFilter : (List.range n.tasks.length).filter p.succeeded = p.updated := by
    refine (List.pairwise_lt_range.filter _).eq_of_mem_iff hOrder fun {i} => ?_
    rw [List.mem_filter, hSucceeded, List.mem_range]
    exact ⟨fun h => h.2, fun hMem => ⟨h.started i hMem, hMem⟩⟩
  rw [latestStarted, hFilter]

end Pictures

/-- The document shows the URL that Storage gave to the call whose update was the
last, which is the latest-started one if the updates went in starting order. -/
structure LastUpdateShows (uid : Uid) (initial : Option Value) (s : Net κ υ ι × Pictures) :
    Prop where
  located : ∀ i ∈ s.2.updated, (s.2.url i).isSome = true
  shows : Shows uid initial (fun s => s.2.updated.getLast?) s
  inOrder : s.2.updated.Pairwise (· < ·) → (∀ i ∈ s.2.updated, i ∈ s.2.stored) →
    Shows uid initial (fun s => s.2.latestStarted s.1.tasks.length) s

/--
**The last update wins.** Whatever calls of `updateProfileImage` an account has
made, and however their steps interleave, succeed and fail, its document shows
the URL of the call whose update was carried out last, or is unchanged.
-/
theorem last_update_wins (backend : Backend) {uid : Uid}
    (hSession : backend.currentUser = some uid) (es : List (Net.Event κ υ ι))
    (hPictures : ∀ e ∈ es, e.OfPictures) :
    Always (observed Net.step Pictures.observe)
      (LastUpdateShows uid (profileImageUrl backend uid)) (uploads backend) es := by
  have hAny : Along (observed Net.step Pictures.observe) (fun _ _ => True)
      (uploads backend : Net κ υ ι × Pictures) es := Along.of_forall fun _ _ => trivial
  have hSound : Always (observed Net.step Pictures.observe)
      (Pictures.Sound uid (profileImageUrl backend uid)) (uploads backend) es := by
    refine Always.of_invariant ?_ (Pictures.sound_uploads hSession) (hAny.and_mem hPictures)
    rintro ⟨n, p⟩ e ⟨n', p'⟩ h ⟨-, hEvent⟩ hStep
    obtain ⟨hNet, rfl⟩ := observed_eq_some hStep
    cases e with
    | call op =>
      obtain rfl := Option.some.inj hNet
      cases op with
      | updateProfileImage image filename completion => exact h.call image filename completion
      | _ => exact hEvent.elim
    | session session => exact hEvent.elim
    | restart => exact hEvent.elim
    | perform i outcome => exact h.perform hNet
    | deliver i =>
      obtain ⟨⟨net, step⟩, hDeliver, rfl⟩ := Option.map_eq_some_iff.mp hNet
      exact h.deliver hDeliver
  refine hSound.mono fun s h => ⟨h.located, h.shows, fun hOrder hStored => ?_⟩
  rw [Shows, h.inOrder hOrder hStored]
  exact h.shows

/-- The slow upload, where the second picture is overtaken by the first. -/
theorem slowUpload_last_update_wins :
    Always (observed Net.step Pictures.observe)
      (LastUpdateShows "a" (profileImageUrl oneAccount "a")) (uploads oneAccount) slowUpload :=
  last_update_wins oneAccount rfl slowUpload (by simp [slowUpload, Net.Event.OfPictures])

end AggroApp
