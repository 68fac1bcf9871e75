import AggroApp.Screens.Copies

/-!
# AggroApp — the two copies in a run

`App.Tracked` says that the two copies are in one of the phases of `Copies`, and
`App.InTurn` that the work of edit screens is done in turn. This module follows
the copies through the calls that the backend carries out and the answers that
it delivers; `Screens/Quiet.lean` follows them through what the user does.
-/

namespace AggroApp

open Async

variable {parses : URLParser} {uid : Uid} {a a' : App}

namespace App

-- ---------------------------------------------------------------------------
-- Work in turn
-- ---------------------------------------------------------------------------

/-- No upload and no write of a save is outstanding. -/
def Idle (a : App) : Prop := ∀ task ∈ a.net.tasks, task.works = false

/-- The work of edit screens is done in turn. A screen is opened, a picture picked,
and a save pressed with no upload or save outstanding; a screen is cancelled with
no upload outstanding and no uploaded picture; and the writes succeed. -/
def InTurn (a : App) : Event → Prop
  | .handleEditProfile | .imagePickerController (some _) _ | .handleDone => a.Idle
  | .handleCancel =>
    (∀ task ∈ a.net.tasks, task.uploads = false) ∧
      ∀ s ∈ a.editing, s.2.viewModel.profileImageUrl = none
  | .perform i (.failure _) => ∀ task ∈ a.net.tasks[i]?, task.writes = false
  | _ => True

instance (a : App) : Decidable a.Idle := inferInstanceAs (Decidable (∀ _ ∈ _, _))

instance (a : App) (e : Event) : Decidable (a.InTurn e) := by
  unfold InTurn
  split <;> infer_instance

-- ---------------------------------------------------------------------------
-- The copies of the app
-- ---------------------------------------------------------------------------

/-- The decoded document of the account. -/
def stored (uid : Uid) (a : App) : User :=
  User.ofDictionary ((a.net.backend.users uid).getD fun _ => none)

def copies (uid : Uid) (a : App) : Copies where
  storedName := (a.stored uid).fullname
  storedUrl := (a.stored uid).profileImageUrl
  homeName := (a.user.map User.fullname).getD ""
  homeUrl := (a.user.map User.profileImageUrl).getD ""
  front := a.front
  screen := a.front.bind fun s => a.edits[s]?

theorem copies_congr (hUsers : a'.net.backend.users uid = a.net.backend.users uid)
    (hUser : a'.user = a.user) (hFront : a'.front = a.front) (hEdits : a'.edits = a.edits) :
    a'.copies uid = a.copies uid := by
  rw [copies, copies, stored, stored, hUsers, hUser, hFront, hEdits]

theorem stored_eq {doc : Document} (hDoc : a.net.backend.users uid = some doc) :
    a.stored uid = User.ofDictionary doc := by
  rw [stored, hDoc]
  rfl

/-- The backend after the account's document has become `doc`. -/
def overwrite (uid : Uid) (doc : Document) (a : App) : Backend :=
  { a.net.backend with users := Function.update a.net.backend.users uid (some doc) }

theorem overwrite_copies {i : ℕ} {call : AppCall} {step : AppStep} {doc : Document} :
    (a.answer i (overwrite uid doc a) call step).copies uid =
      { a.copies uid with
        storedName := (User.ofDictionary doc).fullname
        storedUrl := (User.ofDictionary doc).profileImageUrl } := by
  rw [copies, stored_eq (Function.update_self uid (some doc) a.net.backend.users)]
  rfl

/-- The screen in front is edited. -/
theorem updateEdit_copies {s : ℕ} (hFront : a.front = some s)
    (f : EditProfileViewController → EditProfileViewController) :
    (a.updateEdit s f).copies uid =
      { a.copies uid with screen := (a.copies uid).screen.map f } := by
  have hSame : (a.updateEdit s f).front = some s := hFront
  rw [copies, copies, hSame, hFront]
  simp [updateEdit, stored, List.getElem?_modify_eq]

/-- A screen that is not in front does not matter. -/
theorem updateEdit_copies_of_ne {s : ℕ} (hFront : a.front ≠ some s)
    (f : EditProfileViewController → EditProfileViewController) :
    (a.updateEdit s f).copies uid = a.copies uid := by
  have hSame : (a.updateEdit s f).front = a.front := rfl
  rw [copies, copies, hSame]
  cases hScreen : a.front with
  | none => rfl
  | some t =>
    have hNe : s ≠ t := by
      rintro rfl
      exact hFront hScreen
    simp [updateEdit, stored, List.getElem?_modify_ne _ _ hNe]

-- ---------------------------------------------------------------------------
-- The invariant
-- ---------------------------------------------------------------------------

/-- The account is signed in, and its two copies are in one of the phases. -/
structure Tracked (uid : Uid) (a : App) : Prop where
  session : a.net.backend.currentUser = some uid
  stored : (a.net.backend.users uid).isSome = true
  home : a.user.isSome = true
  front : ∀ s, a.front = some s → s < a.edits.length
  screen : (a.copies uid).ScreenSound
  phase : Phase uid (a.copies uid) a.edits.length a.net.tasks

namespace Tracked

/-- A step that keeps the session and leads to the copies `k`. -/
theorem of_phase (h : a.Tracked uid) {k : Copies}
    (hSession : a'.net.backend.currentUser = some uid)
    (hStored : (a'.net.backend.users uid).isSome = true) (hHome : a'.user.isSome = true)
    (hFront : a'.front = a.front ∨ a'.front = none) (hLength : a'.edits.length = a.edits.length)
    (hCopies : a'.copies uid = k) (hScreen : k.ScreenSound)
    (hPhase : Phase uid k a.edits.length a'.net.tasks) : a'.Tracked uid := by
  subst hCopies
  refine ⟨hSession, hStored, hHome, fun s hs => ?_, hScreen, hLength ▸ hPhase⟩
  rw [hLength]
  rcases hFront with hSame | hNone
  · exact h.front s (hSame ▸ hs)
  · rw [hNone] at hs
    exact absurd hs (by simp)

/-- What is displayed does not matter. -/
theorem frame (h : a.Tracked uid) (hNet : a'.net = a.net) (hUser : a'.user = a.user)
    (hEdits : a'.edits = a.edits) (hFront : a'.front = a.front) : a'.Tracked uid := by
  have hCopies : a'.copies uid = a.copies uid :=
    copies_congr (by rw [hNet]) hUser hFront hEdits
  exact h.of_phase (hNet ▸ h.session) (hNet ▸ h.stored) (hUser ▸ h.home) (Or.inl hFront)
    (by rw [hEdits]) hCopies h.screen (hNet ▸ h.phase)

/-- An idle app: nothing works, and the home screen follows. -/
theorem resting (h : a.Tracked uid) (hIdle : a.Idle) :
    (∀ task ∈ a.net.tasks, Resting uid (a.copies uid) a.edits.length task) ∧
      (a.copies uid).HomeFollows ∧ (a.copies uid).UrlStored :=
  h.phase.idle_of_not_works hIdle

-- ---------------------------------------------------------------------------
-- The backend carries out a call
-- ---------------------------------------------------------------------------

/-- A resting task goes on to a resting task. -/
theorem set_resting (h : a.Tracked uid) {i : ℕ} {old new : AppTask}
    (hOld : a.net.tasks[i]? = some old)
    (hWas : Resting uid (a.copies uid) a.edits.length old)
    (hIs : Resting uid (a.copies uid) a.edits.length new) :
    ({ a with net := ⟨a.net.backend, a.net.tasks.set i new⟩ } : App).Tracked uid :=
  h.of_phase h.session h.stored h.home (Or.inl rfl) rfl rfl h.screen
    (h.phase.set_resting hOld hWas hIs)

/-- The answer of a call that leaves session and documents alone. -/
theorem answer_same (h : a.Tracked uid) {i : ℕ} {backend : Backend} {call : AppCall}
    {step : AppStep} (hSession : backend.currentUser = a.net.backend.currentUser)
    (hUsers : backend.users = a.net.backend.users)
    (hPhase : Phase uid (a.copies uid) a.edits.length
      (a.net.tasks.set i (.answered call step))) : (a.answer i backend call step).Tracked uid := by
  have hCopies : (a.answer i backend call step).copies uid = a.copies uid :=
    copies_congr (congrFun hUsers uid) rfl rfl rfl
  have hStored : (backend.users uid).isSome = true := by
    rw [hUsers]
    exact h.stored
  exact h.of_phase (hSession.trans h.session) hStored h.home (Or.inl rfl) rfl hCopies h.screen
    hPhase

/-- A write of the account that succeeds. -/
theorem answer_write (h : a.Tracked uid) {i : ℕ} {call : AppCall} {step : AppStep}
    {doc : Document} {k : Copies} (hCopies : k = { a.copies uid with
      storedName := (User.ofDictionary doc).fullname
      storedUrl := (User.ofDictionary doc).profileImageUrl })
    (hScreen : k.ScreenSound)
    (hPhase : Phase uid k a.edits.length (a.net.tasks.set i (.answered call step))) :
    (a.answer i (overwrite uid doc a) call step).Tracked uid := by
  have hStored : (Function.update a.net.backend.users uid (some doc) uid).isSome = true := by
    rw [Function.update_self]
    rfl
  exact h.of_phase h.session hStored h.home (Or.inl rfl) rfl (overwrite_copies.trans hCopies.symm)
    hScreen hPhase

theorem perform_resting (h : a.Tracked uid) {i : ℕ} {outcome : Outcome} {call : AppCall}
    {backend : Backend} {step : AppStep} (hTask : a.net.tasks[i]? = some (.waiting call))
    (hResting : Resting uid (a.copies uid) a.edits.length (.waiting call))
    (hAnswered : Answered a.net.backend call outcome backend step) :
    (a.answer i backend call step).Tracked uid := by
  have hPhase : ∀ {new : AppTask}, Resting uid (a.copies uid) a.edits.length new →
      Phase uid (a.copies uid) a.edits.length (a.net.tasks.set i new) :=
    fun hIs => h.phase.set_resting hTask hResting hIs
  obtain ⟨doc, hDoc⟩ := Option.isSome_iff_exists.mp h.stored
  have hStored : a.stored uid = User.ofDictionary doc := stored_eq hDoc
  cases hResting with
  | reading s hScreen =>
    cases hAnswered with
    | readFailed _ _ error => exact h.answer_same rfl rfl (hPhase (.missed s))
    | read =>
      rw [hDoc]
      refine h.answer_same rfl rfl (hPhase (.read s (User.ofDictionary doc) hScreen ?_))
      intro _ c _
      exact ⟨Or.inr (congrArg User.fullname hStored.symm),
        Or.inr (congrArg User.profileImageUrl hStored.symm)⟩
  | seeing =>
    cases hAnswered with
    | updateFailed _ _ _ error => exact h.answer_same rfl rfl (hPhase (.seen (some error)))
    | updated _ _ _ doc' hDoc' =>
      have hSame : doc' = doc := Option.some.inj (hDoc'.symm.trans hDoc)
      subst hSame
      -- name and picture of the document stay
      refine h.answer_write ?_ h.screen (hPhase (.seen none))
      rw [ofDictionary_merge_hasSeenOnboarding, ← hStored]
      rfl

/-- The writes of uploads and saves succeed in turn. -/
theorem not_failed {i : ℕ} {task : AppTask} {error : Error} (hTask : a.net.tasks[i]? = some task)
    (hWrites : task.writes = true) : ¬ a.InTurn (.perform i (.failure error)) := by
  intro hTurn
  have hNot : task.writes = false := hTurn task hTask
  exact absurd (hNot.symm.trans hWrites) (by simp)

theorem perform_uploading (h : a.Tracked uid) {i : ℕ} {outcome : Outcome} {call : AppCall}
    {backend : Backend} {step : AppStep} (hTask : a.net.tasks[i]? = some (.waiting call))
    (hUploads : Task.uploads (.waiting call) = true)
    (hAnswered : Answered a.net.backend call outcome backend step)
    (hTurn : a.InTurn (.perform i outcome)) : (a.answer i backend call step).Tracked uid := by
  obtain ⟨s, hFront, hImage, hOthers, hCase⟩ := h.phase.uploading_of_works hTask hUploads
  rcases hCase with ⟨hUploading, hHome, hUrl⟩ | ⟨hWritten, -⟩
  · have hPhase : ∀ {new : AppTask}, Uploading uid s new →
        Phase uid (a.copies uid) a.edits.length (a.net.tasks.set i new) := by
      intro new hNew
      obtain ⟨hLt, -⟩ := List.getElem?_eq_some_iff.mp hTask
      exact .uploading i s new (List.getElem?_set_self hLt) hNew hOthers.set hFront
        hImage hHome hUrl
    cases hUploading with
    | storing filename data =>
      cases hAnswered with
      | storeFailed => exact h.answer_same rfl rfl (hPhase (.stored filename data))
      | stored => exact h.answer_same rfl rfl (hPhase (.stored filename data))
    | locating filename =>
      cases hAnswered with
      | locateFailed => exact h.answer_same rfl rfl (hPhase (.lost filename))
      | located _ _ image => exact h.answer_same rfl rfl (hPhase (.located filename image.url))
    | writing url =>
      cases hAnswered with
      | updateFailed => exact absurd hTurn (not_failed hTask rfl)
      | updated _ _ _ doc hDoc =>
        -- the document changes, and the screen's own flag is up already
        refine h.answer_write (k := { a.copies uid with storedUrl := url }) ?_ ?_
          (Phase.write_url hTask hOthers hFront hImage hHome.1)
        · rw [ofDictionary_merge_profileImageUrl, ← stored_eq hDoc]
          rfl
        · intro c hMem
          obtain ⟨hFetched, hName⟩ := h.screen c hMem
          exact ⟨fun user hUser => ⟨(hFetched user hUser).1, Or.inl (hImage c hMem)⟩, hName⟩
  · exact absurd hWritten (by simp [written])

theorem perform_saving (h : a.Tracked uid) {i : ℕ} {outcome : Outcome} {call : AppCall}
    {backend : Backend} {step : AppStep} (hTask : a.net.tasks[i]? = some (.waiting call))
    (hWorks : Task.works (.waiting call) = true) (hUploads : Task.uploads (.waiting call) = false)
    (hAnswered : Answered a.net.backend call outcome backend step)
    (hTurn : a.InTurn (.perform i outcome)) : (a.answer i backend call step).Tracked uid := by
  obtain ⟨user, hSaving, hTasks, hChanged, hSavedUrl, hUrl, -⟩ :=
    h.phase.saving_of_works hTask hWorks hUploads
  cases hSaving with
  | saving s =>
    cases hAnswered with
    | updateFailed => exact absurd hTurn (not_failed hTask rfl)
    | updated _ _ _ doc hDoc =>
      refine h.answer_write (k := { a.copies uid with storedName := user.fullname }) ?_ ?_
        (Phase.write_name hTask hTasks hChanged hSavedUrl hUrl)
      · rw [ofDictionary_merge_fullname, ← stored_eq hDoc]
        rfl
      · intro c hMem
        obtain ⟨hFetched, hName⟩ := h.screen c hMem
        exact ⟨fun user hUser => ⟨Or.inl (hChanged c hMem), (hFetched user hUser).2⟩, hName⟩

theorem perform (h : a.Tracked uid) {i : ℕ} {outcome : Outcome} {call : AppCall}
    {backend : Backend} {step : AppStep} (hTask : a.net.tasks[i]? = some (.waiting call))
    (hAnswered : Answered a.net.backend call outcome backend step)
    (hTurn : a.InTurn (.perform i outcome)) : (a.answer i backend call step).Tracked uid := by
  by_cases hWorks : Task.works (.waiting call) = true
  · by_cases hUploads : Task.uploads (.waiting call) = true
    · exact h.perform_uploading hTask hUploads hAnswered hTurn
    · exact h.perform_saving hTask hWorks (eq_false_of_ne_true hUploads) hAnswered hTurn
  · have hResting := h.phase.resting_of_not_works hTask (eq_false_of_ne_true hWorks)
    exact h.perform_resting hTask hResting hAnswered

-- ---------------------------------------------------------------------------
-- An answer is delivered
-- ---------------------------------------------------------------------------

/-- The form of the screen in front is edited. -/
theorem edit_front (h : a.Tracked uid) {s : ℕ} (hFront : a.front = some s)
    {f : EditProfileViewController → EditProfileViewController}
    (hUrlSame : ∀ c, (f c).viewModel.profileImageUrl = c.viewModel.profileImageUrl)
    (hName : ∀ c, c.fullnameChanged = true → (f c).fullnameChanged = true)
    (hImage : ∀ c, c.imageChanged = true → (f c).imageChanged = true)
    (hSound : ∀ c ∈ (a.copies uid).screen,
      (∀ user ∈ (f c).user, (a.copies uid).Fetched (f c) user) ∧
        ((f c).fullnameChanged = true → (f c).viewModel.fullname.isSome = true)) :
    (a.updateEdit s f).Tracked uid := by
  refine h.of_phase h.session h.stored h.home (Or.inl rfl) (List.length_modify f a.edits s)
    (updateEdit_copies hFront f) ?_ (h.phase.map_screen hUrlSame hName hImage)
  intro c hMem
  obtain ⟨c₀, hMem₀, rfl⟩ := Option.map_eq_some_iff.mp hMem
  exact hSound c₀ hMem₀

/-- The form of a closed screen does not matter. -/
theorem edit_closed (h : a.Tracked uid) {s : ℕ} (hFront : a.front ≠ some s)
    (f : EditProfileViewController → EditProfileViewController) :
    (a.updateEdit s f).Tracked uid :=
  h.of_phase h.session h.stored h.home (Or.inl rfl) (List.length_modify f a.edits s)
    (updateEdit_copies_of_ne hFront f) h.screen h.phase

/-- The home screen is told, and the screen in front may be closed, while the tasks
become `tasks`. -/
theorem notified (h : a.Tracked uid) {user : User} {tasks : List AppTask}
    (hNet : a'.net = ⟨a.net.backend, tasks⟩) (hUser : a'.user = some user)
    (hEdits : a'.edits = a.edits)
    (hPhase : Phase uid ((a.copies uid).told user) a.edits.length tasks)
    (hFront : a'.front = a.front ∨
      a'.front = none ∧ Phase uid ((a.copies uid).told user).closed a.edits.length tasks) :
    a'.Tracked uid := by
  have hTasks : a'.net.tasks = tasks := by rw [hNet]
  have hSession : a'.net.backend.currentUser = some uid := by rw [hNet]; exact h.session
  have hStored : (a'.net.backend.users uid).isSome = true := by rw [hNet]; exact h.stored
  have hHome : a'.user.isSome = true := by rw [hUser]; rfl
  have hLength : a'.edits.length = a.edits.length := by rw [hEdits]
  rcases hFront with hSame | ⟨hNone, hClosed⟩
  · have hCopies : a'.copies uid = (a.copies uid).told user := by
      rw [copies, App.stored, hNet, hUser, hSame, hEdits]
      rfl
    rw [← hTasks] at hPhase
    exact h.of_phase hSession hStored hHome (Or.inl hSame) hLength hCopies h.screen hPhase
  · have hCopies : a'.copies uid = ((a.copies uid).told user).closed := by
      rw [copies, App.stored, hNet, hUser, hNone]
      rfl
    rw [← hTasks] at hClosed
    exact h.of_phase hSession hStored hHome (Or.inr hNone) hLength hCopies Copies.closed_sound
      hClosed

theorem deliver_resting (h : a.Tracked uid) {i : ℕ} {call : AppCall} {step : AppStep}
    (hTask : a.net.tasks[i]? = some (.answered call step))
    (hResting : Resting uid (a.copies uid) a.edits.length (.answered call step)) :
    ((a.receive i step).take parses step).Tracked uid := by
  have hOver : ({ a with net := ⟨a.net.backend, a.net.tasks.set i .ended⟩ } : App).Tracked uid :=
    h.set_resting hTask hResting .ended
  cases hResting with
  | missed s => exact hOver
  | read s user hScreen hFetched =>
    by_cases hFront : a.front = some s
    · refine hOver.edit_front hFront ?_ ?_ ?_ ?_
      · exact fun c => congrArg _ (c.setUser_fields parses user).2.1
      · exact fun c hChanged => (c.setUser_fields parses user).2.2.1.trans hChanged
      · exact fun c hChanged => (c.setUser_fields parses user).2.2.2.trans hChanged
      · intro c hMem
        obtain ⟨hUser, hModel, hName, hImage⟩ := c.setUser_fields parses user
        refine ⟨fun user' hMem' => ?_, fun hChanged => ?_⟩
        · rw [hUser, Option.mem_some_iff] at hMem'
          subst hMem'
          unfold Copies.Fetched
          rw [hName, hImage]
          exact hFetched hFront c hMem
        · rw [hName] at hChanged
          rw [hModel]
          exact (h.screen c hMem).2 hChanged
    · exact hOver.edit_closed hFront _
  | seen error =>
    obtain ⟨user, hUser⟩ := Option.isSome_iff_exists.mp h.home
    have hTake : (a.receive i (.completed .controllerWantsToDismiss error)).take parses
        (.completed .controllerWantsToDismiss error) =
          App.setUser parses { a with net := ⟨a.net.backend, a.net.tasks.set i .ended⟩ }
            { user with hasSeenOnboarding := true } :=
      complete_dismissed (a := a.receive i _) hUser error
    -- name and picture on the home screen stay
    have hCopies : (a.copies uid).told { user with hasSeenOnboarding := true } = a.copies uid := by
      rw [copies, hUser]
      rfl
    rw [hTake]
    refine hOver.notified (setUser_net _) (setUser_user _) (setUser_edits _) ?_
      (Or.inl (setUser_front _))
    show Phase uid ((a.copies uid).told _) a.edits.length _
    rw [hCopies]
    exact hOver.phase

theorem deliver_uploading (h : a.Tracked uid) {i : ℕ} {call : AppCall} {step : AppStep}
    (hTask : a.net.tasks[i]? = some (.answered call step))
    (hUploads : Task.uploads (.answered call step) = true) :
    ((a.receive i step).take parses step).Tracked uid := by
  obtain ⟨s, hFront, hImage, hOthers, hCase⟩ := h.phase.uploading_of_works hTask hUploads
  rcases hCase with ⟨hUploading, hHome, hUrl⟩ | ⟨hWritten, hName⟩
  · have hTracked : ∀ {new : AppTask}, Phase uid (a.copies uid) a.edits.length
        (a.net.tasks.set i new) →
          ({ a with net := ⟨a.net.backend, a.net.tasks.set i new⟩ } : App).Tracked uid :=
      fun hPhase => h.of_phase h.session h.stored h.home (Or.inl rfl) rfl rfl h.screen hPhase
    have hNext : ∀ {new : AppTask}, Uploading uid s new →
        ({ a with net := ⟨a.net.backend, a.net.tasks.set i new⟩ } : App).Tracked uid := by
      intro new hNew
      obtain ⟨hLt, -⟩ := List.getElem?_eq_some_iff.mp hTask
      exact hTracked (.uploading i s new (List.getElem?_set_self hLt) hNew
        hOthers.set hFront hImage hHome hUrl)
    cases hUploading with
    | stored filename data => exact hNext (.locating filename)
    | lost filename => exact hTracked (.idle (hOthers.forall_mem_set .ended) hHome hUrl)
    | located filename url => exact hNext (.writing url)
  · have hEq := hWritten
    rw [written, Task.answered.injEq] at hEq
    obtain ⟨rfl, rfl⟩ := hEq
    have hSame : a.front = some s := hFront
    have hLt : s < a.edits.length := h.front s hSame
    have hScreen : (a.copies uid).screen.isSome = true := by
      show (a.front.bind fun s => a.edits[s]?).isSome = true
      rw [hSame, Option.bind_some, List.getElem?_eq_getElem hLt]
      rfl
    have hCopies : ((a.receive i (.uploaded (.imagePickerController s)
        (a.copies uid).storedUrl)).take parses (.uploaded (.imagePickerController s)
          (a.copies uid).storedUrl)).copies uid =
        { a.copies uid with
          screen := (a.copies uid).screen.map (.imageUploaded (a.copies uid).storedUrl) } :=
      updateEdit_copies hSame _
    refine h.of_phase h.session h.stored h.home (Or.inl rfl) (List.length_modify _ a.edits s)
      hCopies ?_ (Phase.answer_url hOthers hName hScreen)
    intro c hMem
    obtain ⟨c₀, hMem₀, rfl⟩ := Option.map_eq_some_iff.mp hMem
    exact h.screen c₀ hMem₀

theorem deliver_saving (h : a.Tracked uid) {i : ℕ} {call : AppCall} {step : AppStep}
    (hTask : a.net.tasks[i]? = some (.answered call step))
    (hWorks : Task.works (.answered call step) = true)
    (hUploads : Task.uploads (.answered call step) = false) :
    ((a.receive i step).take parses step).Tracked uid := by
  obtain ⟨user, hSaving, hTasks, hChanged, hSavedUrl, hUrl, hSaved⟩ :=
    h.phase.saving_of_works hTask hWorks hUploads
  have hPhase := Phase.answer_name hTask hSaving rfl hTasks hChanged hSavedUrl hUrl hSaved
  have hNoUploads : ∀ task ∈ a.net.tasks.set i .ended, task.uploads = false := by
    refine forall_mem_set (fun task hMem => ?_) rfl
    rcases hTasks task hMem with hResting | hSaves
    · exact hResting.uploads
    · exact hSaves.uploads
  cases hSaving with
  | saved s =>
    have hTake : (a.receive i (.completed (.updateUserData s user) none)).take parses
        (.completed (.updateUserData s user) none) =
          App.wantsToUpdate parses { a with net := ⟨a.net.backend, a.net.tasks.set i .ended⟩ } s
            user := rfl
    rw [hTake, wantsToUpdate_eq]
    refine h.notified (setUser_net _) (setUser_user _) (setUser_edits _) hPhase ?_
    rw [setUser_front]
    exact (dismissEdit_front s).imp_right fun hNone =>
      ⟨hNone, hPhase.closed_of_told hNoUploads hSavedUrl⟩

theorem deliver (h : a.Tracked uid) {i : ℕ} {call : AppCall} {step : AppStep}
    (hTask : a.net.tasks[i]? = some (.answered call step)) :
    ((a.receive i step).take parses step).Tracked uid := by
  by_cases hWorks : Task.works (.answered call step) = true
  · by_cases hUploads : Task.uploads (.answered call step) = true
    · exact h.deliver_uploading hTask hUploads
    · exact h.deliver_saving hTask hWorks (eq_false_of_ne_true hUploads)
  · exact h.deliver_resting hTask (h.phase.resting_of_not_works hTask (eq_false_of_ne_true hWorks))

end Tracked

end App

end AggroApp
