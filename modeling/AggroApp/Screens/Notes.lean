import AggroApp.Screens.Texts

/-!
# AggroApp — right notes

The notes of `Screens/Versions.lean` are right about the whole app: in every run
there is one sequence of texts, such that at any time the document has the text of
the last write, and every copy that was read, or has been stored, has the text of
its version, on the home screen, with the operations in flight, and on the edit
screens.

* `versions_have_texts` — the notes of every run are right.
-/

namespace AggroApp

open Async
open EditProfileViewController (tells)

variable {parses : URLParser} {a a' : App}
variable {field : ProfileField} {text text' : ℕ → String}

-- ---------------------------------------------------------------------------
-- The app and its notes
-- ---------------------------------------------------------------------------

/-- The document and all copies have the texts of their versions. -/
structure App.Noted (field : ProfileField) (uid : Uid) (text : ℕ → String) (v : Versions)
    (a : App) : Prop where
  document : a.net.backend.Noted field uid text v.stored
  home : ∀ user ∈ a.user, v.home.Matches text (field.of user)
  task : ∀ (j : ℕ) (task : AppTask), a.net.tasks[j]? = some task →
    task.Noted field text (v.task j)
  edit : ∀ (s : ℕ) (c : EditProfileViewController), a.edits[s]? = some c →
    ∀ user ∈ c.user, (v.edit s).Matches text (field.of user)
  picture : field = .profileImageUrl → ∀ (s : ℕ) (c : EditProfileViewController),
    a.edits[s]? = some c → ∀ url ∈ c.viewModel.profileImageUrl,
      (⟨v.picture s, false⟩ : Tag).Matches text url

namespace App.Noted

variable {uid : Uid} {v : Versions} {i : ℕ}

theorem frame (h : a.Noted field uid text v)
    (hUsers : a'.net.backend.users uid = a.net.backend.users uid)
    (hTasks : a'.net.tasks = a.net.tasks) (hUser : a'.user = a.user) (hEdits : a'.edits = a.edits) :
    a'.Noted field uid text v := by
  refine ⟨h.document.congr hUsers rfl, ?_, ?_, ?_, ?_⟩
  · rw [hUser]
    exact h.home
  · rw [hTasks]
    exact h.task
  · rw [hEdits]
    exact h.edit
  · rw [hEdits]
    exact h.picture

/-- More texts do not matter to what is stored already. -/
theorem congr (h : a.Noted field uid text v) (hBounded : v.Bounded)
    (hAgree : ∀ m ≤ v.stored, text' m = text m) : a.Noted field uid text' v := by
  refine ⟨fun doc hDoc => ?_, fun user hUser => ?_, fun j task hTask => ?_,
    fun s c hEdit user hUser => ?_, fun hField s c hEdit url hUrl => ?_⟩
  · rw [hAgree v.stored (Nat.le_refl v.stored)]
    exact h.document doc hDoc
  · exact (h.home user hUser).congr hAgree hBounded.home
  · exact (h.task j task hTask).congr hAgree (hBounded.task j)
  · exact (h.edit s c hEdit user hUser).congr hAgree (hBounded.edit s)
  · exact (h.picture hField s c hEdit url hUrl).congr hAgree (hBounded.picture s)

theorem call (h : a.Noted field uid text v)
    (op : Operation Completion UserCompletion ImageCompletion)
    (hStart : (op.start a.net.backend.currentUser).Noted field text (v.task a.net.tasks.length)) :
    (a.call op).Noted field uid text v := by
  refine ⟨h.document, h.home, fun j task hTask => ?_, h.edit, h.picture⟩
  rcases getElem?_concat_cases hTask with ⟨rfl, rfl⟩ | hOld
  · exact Task.noted_ofStep hStart
  · exact h.task j task hOld

/-- The home screen is told a value with this tag. -/
theorem told (h : a.Noted field uid text v) {user : User} {tag : Tag} (hNet : a'.net = a.net)
    (hUser : a'.user = some user) (hEdits : a'.edits = a.edits)
    (hTag : tag.Matches text (field.of user)) : a'.Noted field uid text (v.assign (some tag)) := by
  refine ⟨?_, fun user' hMem => ?_, ?_, ?_, ?_⟩
  · rw [hNet]
    exact h.document
  · rw [hUser, Option.mem_some_iff] at hMem
    exact hMem ▸ hTag
  · rw [hNet]
    exact h.task
  · rw [hEdits]
    exact h.edit
  · rw [hEdits]
    exact h.picture

theorem wantsToUpdate (h : a.Noted field uid text v) (parses : URLParser) (s : ℕ) {user : User}
    {tag : Tag} (hTag : tag.Matches text (field.of user)) :
    (a.wantsToUpdate parses s user).Noted field uid text (v.assign (some tag)) := by
  rw [wantsToUpdate_eq]
  exact h.told (setUser_net user) (setUser_user user) (setUser_edits user) hTag

/-- An edit of the form keeps the user and the URL. -/
theorem updateEdit (h : a.Noted field uid text v) (s : ℕ)
    {f : EditProfileViewController → EditProfileViewController}
    (hUser : ∀ c, (f c).user = c.user)
    (hUrl : ∀ c, (f c).viewModel.profileImageUrl = c.viewModel.profileImageUrl) :
    (a.updateEdit s f).Noted field uid text v := by
  refine ⟨h.document, h.home, h.task, fun t c hEdit user hMem => ?_,
    fun hField t c hEdit url hMem => ?_⟩
  · rcases getElem?_modify_cases hEdit with ⟨rfl, c₀, hOld, rfl⟩ | ⟨-, hOld⟩
    · exact h.edit t c₀ hOld user (hUser c₀ ▸ hMem)
    · exact h.edit t c hOld user hMem
  · rcases getElem?_modify_cases hEdit with ⟨rfl, c₀, hOld, rfl⟩ | ⟨-, hOld⟩
    · exact h.picture hField t c₀ hOld url (hUrl c₀ ▸ hMem)
    · exact h.picture hField t c hOld url hMem

theorem receive (h : a.Noted field uid text v) {call : AppCall} {step : AppStep}
    (hTask : a.net.tasks[i]? = some (.answered call step)) :
    (a.receive i step).Noted field uid text v := by
  refine ⟨h.document, h.home, fun j task hNow => ?_, h.edit, h.picture⟩
  rcases getElem?_set_cases hNow with ⟨rfl, rfl⟩ | ⟨-, hOld⟩
  · exact Task.noted_ofStep (h.task j _ hTask)
  · exact h.task j task hOld

/-- A call is carried out, which may add a text. -/
theorem answer (h : a.Noted field uid text v) (hBounded : v.Bounded) {outcome : Outcome}
    {call : AppCall} {backend : Backend} {step : AppStep}
    (hTask : a.net.tasks[i]? = some (.waiting call))
    (hAnswered : Answered a.net.backend call outcome backend step) :
    ∃ text', (∀ m ≤ v.stored, text' m = text m) ∧
      (a.answer i backend call step).Noted field uid text'
        (v.observe field uid a (.perform i outcome)) := by
  have hNotes : v.Follows field uid i call outcome
      (v.observe field uid a (.perform i outcome)) := by
    constructor
    · rintro rfl
      simp only [Versions.observe, Versions.follow, Versions.told, hTask]
      rfl
    · intro hFailure
      cases outcome with
      | success => exact absurd rfl hFailure
      | _ => rfl
  obtain ⟨text', hAgree, hDocument⟩ := hAnswered.document_noted hNotes h.document
  have hStep : step.Noted field text' ((v.observe field uid a (.perform i outcome)).task i) :=
    hAnswered.step_noted hNotes hBounded (h.task i _ hTask) hAgree h.document hDocument
  have hKept := h.congr hBounded hAgree
  obtain ⟨hHome, hEdit, hPicture, hTasks⟩ := hNotes.frame
  refine ⟨text', hAgree, hDocument, ?_, fun j task hNow => ?_, ?_, ?_⟩
  · rw [hHome]
    exact hKept.home
  · rcases getElem?_set_cases hNow with ⟨rfl, rfl⟩ | ⟨hNe, hOld⟩
    · exact hStep
    · rw [hTasks j hNe]
      exact hKept.task j task hOld
  · rw [hEdit]
    exact hKept.edit
  · rw [hPicture]
    exact hKept.picture

theorem fetchUserWithFirestore (h : a.Noted field uid text v) :
    a.fetchUserWithFirestore.Noted field uid text v := by
  refine h.call _ ?_
  cases a.net.backend.currentUser with
  | none => trivial
  | some uid => trivial

theorem authenticationComplete (h : a.Noted field uid text v) :
    a.authenticationComplete.Noted field uid text v := by
  have hDismissed : (({ a with
      log := a.log ++ [.authenticationComplete a.net.backend.currentUser] } : App
      ).dismiss).Noted field uid text v := h.frame rfl rfl rfl rfl
  exact hDismissed.fetchUserWithFirestore

theorem finishAuthentication (h : a.Noted field uid text v) (error : Option Error) :
    (a.finishAuthentication error).Noted field uid text v := by
  have hHidden : (a.showLoader false).Noted field uid text v := h.frame rfl rfl rfl rfl
  cases error with
  | some error => exact h.frame rfl rfl rfl rfl
  | none => exact hHidden.authenticationComplete

-- ---------------------------------------------------------------------------
-- An answer is delivered
-- ---------------------------------------------------------------------------

theorem deliver_completed (h : a.Noted field uid text v) {call : AppCall}
    {completion : Completion} {error : Option Error}
    (hTask : a.net.tasks[i]? = some (.answered call (.completed completion error))) :
    ((a.receive i (.completed completion error)).complete parses error completion).Noted field uid
      text (v.observe field uid a (.deliver i)) := by
  have hReceived := h.receive hTask
  have hObserve : v.observe field uid a (.deliver i) = v.assign (v.told field a (.deliver i)) := by
    simp only [Versions.observe, Versions.follow, hTask]
  rw [hObserve, Versions.told, hTask]
  cases completion with
  | controllerWantsToDismiss =>
    cases hUser : a.user with
    | none =>
      have hNobody : (a.receive i (.completed .controllerWantsToDismiss error)).user = none := hUser
      rw [complete_unloaded hNobody]
      exact hReceived
    | some user =>
      have hSame : (a.receive i (.completed .controllerWantsToDismiss error)).user = some user :=
        hUser
      have hTag : v.home.Matches text (field.of { user with hasSeenOnboarding := true }) := by
        cases field with
        | fullname => exact h.home user hUser
        | profileImageUrl => exact h.home user hUser
      rw [complete_dismissed hSame]
      exact hReceived.told (setUser_net _) (setUser_user _) (setUser_edits _) hTag
  | updateUserData s user => exact hReceived.wantsToUpdate parses s (h.task i _ hTask)
  | handleLogin | handleSignUp => exact hReceived.finishAuthentication error
  | handleGoogleLogin => exact hReceived.authenticationComplete
  | handleResetPassword => cases error <;> exact hReceived.frame rfl rfl rfl rfl

/-- The user of an edit screen arrives. -/
theorem deliver_edit (h : a.Noted field uid text v) {call : AppCall} {s : ℕ} {user : User}
    (hTask : a.net.tasks[i]? = some (.answered call (.fetched (.edit s) user))) :
    ((a.receive i (.fetched (.edit s) user)).updateEdit s (.setUser parses user)).Noted field uid
      text (v.observe field uid a (.deliver i)) := by
  have hReceived := h.receive hTask
  have hObserve : v.observe field uid a (.deliver i) =
      { v with edit := Function.update v.edit s (v.task i) } := by
    simp only [Versions.observe, Versions.told, Versions.follow, hTask]
    rfl
  rw [hObserve]
  refine ⟨hReceived.document, hReceived.home, hReceived.task, fun t c hEdit user' hMem => ?_,
    fun hField t c hEdit url hMem => ?_⟩
  · rcases getElem?_modify_cases hEdit with ⟨rfl, c₀, -, rfl⟩ | ⟨hNe, hOld⟩
    · rw [(c₀.setUser_fields parses user).1, Option.mem_some_iff] at hMem
      dsimp only
      rw [Function.update_self, ← hMem]
      exact h.task i _ hTask
    · dsimp only
      rw [Function.update_of_ne hNe]
      exact h.edit t c hOld user' hMem
  · rcases getElem?_modify_cases hEdit with ⟨rfl, c₀, hOld, rfl⟩ | ⟨-, hOld⟩
    · rw [(c₀.setUser_fields parses user).2.1] at hMem
      exact h.picture hField t c₀ hOld url hMem
    · exact h.picture hField t c hOld url hMem

/-- The URL of an uploaded picture arrives. -/
theorem deliver_uploaded (h : a.Noted field uid text v) {call : AppCall} {s : ℕ} {url : String}
    (hTask : a.net.tasks[i]? = some (.answered call (.uploaded (.imagePickerController s) url))) :
    (((a.receive i (.uploaded (.imagePickerController s) url)).updateEdit s
      (.imageUploaded url)).showLoader false).Noted field uid text
        (v.observe field uid a (.deliver i)) := by
  have hReceived := h.receive hTask
  have hObserve : v.observe field uid a (.deliver i) =
      { v with picture := Function.update v.picture s (v.task i).version } := by
    simp only [Versions.observe, Versions.told, Versions.follow, hTask]
    rfl
  rw [hObserve]
  refine ⟨hReceived.document, hReceived.home, hReceived.task, fun t c hEdit user' hMem => ?_,
    fun hField t c hEdit url' hMem => ?_⟩
  · rcases getElem?_modify_cases hEdit with ⟨rfl, c₀, hOld, rfl⟩ | ⟨-, hOld⟩
    · exact h.edit t c₀ hOld user' hMem
    · exact h.edit t c hOld user' hMem
  · rcases getElem?_modify_cases hEdit with ⟨rfl, c₀, -, rfl⟩ | ⟨hNe, hOld⟩
    · have hUrl : url' = url := (Option.mem_some_iff.mp hMem).symm
      dsimp only
      rw [Function.update_self, hUrl]
      intro hStored
      exact h.task i _ hTask hField (Or.inr (hStored.resolve_left (by simp)))
    · dsimp only
      rw [Function.update_of_ne hNe]
      exact h.picture hField t c hOld url' hMem

theorem deliver (h : a.Noted field uid text v) {call : AppCall} {step : AppStep}
    (hTask : a.net.tasks[i]? = some (.answered call step)) :
    ((a.receive i step).take parses step).Noted field uid text
      (v.observe field uid a (.deliver i)) := by
  cases step with
  | completed completion error => exact h.deliver_completed hTask
  | fetched comletion user =>
    cases comletion with
    | home =>
      have hObserve : v.observe field uid a (.deliver i) = v.assign (some (v.task i)) := by
        simp only [Versions.observe, Versions.follow, Versions.told, hTask]
      rw [hObserve]
      exact (h.receive hTask).told (setUser_net user) (setUser_user user) (setUser_edits user)
        (h.task i _ hTask)
    | edit s => exact h.deliver_edit hTask
  | uploaded completion url => exact h.deliver_uploaded hTask
  | _ =>
    have hObserve : v.observe field uid a (.deliver i) = v := by
      simp only [Versions.observe, Versions.follow, Versions.told, hTask]
      rfl
    rw [hObserve]
    exact (h.receive hTask).frame rfl rfl rfl rfl

-- ---------------------------------------------------------------------------
-- A save
-- ---------------------------------------------------------------------------

/-- A new operation carries what it was started with. -/
theorem started (h : a.Noted field uid text v) (tag : Tag) :
    a.Noted field uid text (v.started a.net.tasks.length tag) := by
  refine ⟨h.document, h.home, fun j task hTask => ?_, h.edit, h.picture⟩
  obtain ⟨hLt, -⟩ := List.getElem?_eq_some_iff.mp hTask
  dsimp only [Versions.started]
  rw [if_pos hLt]
  exact h.task j task hTask

/-- The picture that a save tells or captures. -/
theorem copied_picture (h : a.Noted .profileImageUrl uid text v) {s : ℕ}
    {c : EditProfileViewController} (hScreen : a.edits[s]? = some c) {user user' : User}
    (hUser : c.user = some user)
    (hNew : c.imageChanged = true → c.viewModel.profileImageUrl = some user'.profileImageUrl)
    (hOld : c.imageChanged = false → user'.profileImageUrl = user.profileImageUrl) :
    (v.copied .profileImageUrl s c).Matches text user'.profileImageUrl := by
  rw [Versions.copied]
  cases hImage : c.imageChanged with
  | true => exact h.picture rfl s c hScreen user'.profileImageUrl (hNew hImage)
  | false =>
    rw [hOld hImage]
    exact h.edit s c hScreen user hUser

/-- A write starts with the tag that its user has been captured with. -/
theorem call_save (h : a.Noted field uid text v) (s : ℕ) (user : User)
    (hTag : (v.task a.net.tasks.length).Matches text (field.of user)) :
    (a.call (.updateUserData user (.updateUserData s user))).Noted field uid text v := by
  refine h.call _ ?_
  cases a.net.backend.currentUser with
  | none => trivial
  | some uid' => exact ⟨⟨uid', rfl⟩, hTag⟩

/-- What a write of a save captures. -/
theorem captured (h : a.Noted field uid text v) {s : ℕ} {c : EditProfileViewController}
    (hScreen : a.edits[s]? = some c) {user user' : User} (hUser : c.user = some user)
    (hNew : c.imageChanged = true → c.viewModel.profileImageUrl = some user'.profileImageUrl)
    (hOld : c.imageChanged = false → user'.profileImageUrl = user.profileImageUrl) :
    (v.captured field s c).Matches text (field.of user') := by
  cases field with
  | fullname => exact Tag.matches_unstored
  | profileImageUrl => exact h.copied_picture hScreen hUser hNew hOld

/-- What the home screen is told at once: the fetched user with the new picture. -/
theorem copied (h : a.Noted field uid text v) {s : ℕ} {c : EditProfileViewController}
    (hScreen : a.edits[s]? = some c) {user : User} {url : String} (hUser : c.user = some user)
    (hUrl : c.viewModel.profileImageUrl = some url) (hImage : c.imageChanged = true) :
    (v.copied field s c).Matches text (field.of { user with profileImageUrl := url }) := by
  cases field with
  | fullname => exact h.edit s c hScreen user hUser
  | profileImageUrl =>
    refine h.copied_picture hScreen hUser (fun _ => hUrl) fun hFalse => ?_
    exact absurd (hImage.symm.trans hFalse) (by simp)

theorem handleDone (h : a.Noted field uid text v) {s : ℕ} {c : EditProfileViewController}
    (hEditing : a.editing = some (s, c)) {past : List EditProfileViewController.Event}
    (hHolds : EditProfileViewController.Holds past c) :
    (a.handleDone parses s c).Noted field uid text (v.observe field uid a .handleDone) := by
  obtain ⟨-, hScreen⟩ := editing_eq_some hEditing
  have hStarted := h.started (v.captured field s c)
  have hObserve : v.observe field uid a .handleDone =
      (v.started a.net.tasks.length (v.captured field s c)).assign
        (if tells c.updateUserData = [] then none else some (v.copied field s c)) := by
    simp only [Versions.observe, Versions.follow, Versions.told, hEditing]
  have hLater : ∀ j, a.net.tasks.length ≤ j →
      (v.started a.net.tasks.length (v.captured field s c)).task j = v.captured field s c := by
    intro j hGe
    exact if_neg (by omega)
  have hPressed := hHolds.pressed
  rw [hObserve, App.handleDone]
  generalize c.updateUserData = effects at hPressed ⊢
  cases hPressed with
  | unfetched hUser => exact hStarted
  | unchanged user hUser hText hPicked => exact hStarted
  | trapped user hUser hPicked hUrl => exact hStarted.frame rfl rfl rfl rfl
  | image user url hUser hPicked hUrl hText =>
    have hTag := h.copied hScreen (hHolds.user.trans hUser) (hHolds.url.trans hUrl)
      (hHolds.imageChanged.trans hPicked)
    rw [if_neg (by simp)]
    exact hStarted.wantsToUpdate parses s hTag
  | fullname user fullname hUser hPicked hText =>
    have hImage : c.imageChanged = false := hHolds.imageChanged.trans hPicked
    have hTag : (v.captured field s c).Matches text (field.of { user with fullname }) := by
      refine h.captured hScreen (hHolds.user.trans hUser) (fun hTrue => ?_) fun _ => rfl
      exact absurd (hImage.symm.trans hTrue) (by simp)
    rw [if_pos (by simp)]
    refine hStarted.call_save s _ ?_
    rw [hLater _ (Nat.le_refl _)]
    exact hTag
  | both user url fullname hUser hPicked hUrl hText =>
    have hImage : c.imageChanged = true := hHolds.imageChanged.trans hPicked
    have hModel : c.viewModel.profileImageUrl = some url := hHolds.url.trans hUrl
    have hTold := hStarted.wantsToUpdate parses s
      (h.copied hScreen (hHolds.user.trans hUser) hModel hImage)
    have hTag : (v.captured field s c).Matches text
        (field.of { user with profileImageUrl := url, fullname }) := by
      refine h.captured hScreen (hHolds.user.trans hUser) (fun _ => hModel) fun hFalse => ?_
      exact absurd (hImage.symm.trans hFalse) (by simp)
    have hTasks : (a.wantsToUpdate parses s { user with profileImageUrl := url }).net.tasks =
        a.net.tasks := by
      rw [wantsToUpdate_eq, setUser_net]
      rfl
    have hCaptured : ∀ j, a.net.tasks.length ≤ j →
        ((v.started a.net.tasks.length (v.captured field s c)).task j).Matches text
          (field.of { user with profileImageUrl := url, fullname }) := by
      intro j hGe
      rw [hLater j hGe]
      exact hTag
    rw [if_neg (by simp)]
    -- two writes, the second like the first
    have hFirst := hTold.call_save s { user with profileImageUrl := url, fullname }
      (hCaptured _ (Nat.le_of_eq (by rw [hTasks])))
    refine hFirst.call_save s _ (hCaptured _ ?_)
    show a.net.tasks.length ≤ ((a.wantsToUpdate parses s _).net.tasks ++ [_]).length
    rw [hTasks, List.length_append]
    exact Nat.le_add_right _ _

-- ---------------------------------------------------------------------------
-- Steps and runs
-- ---------------------------------------------------------------------------

theorem launch (h : a.Noted field uid text v) :
    (App.launch a.net a.log).Noted field uid text v := by
  have hLoaded : (loaded a.net.restart a.log).Noted field uid text v := by
    refine ⟨h.document, ?_, ?_, ?_, ?_⟩
    · simp [loaded]
    · simp [loaded, Net.restart]
    · simp [loaded]
    · simp [loaded]
  unfold App.launch authenticateUSer
  split
  · exact hLoaded.frame rfl rfl rfl rfl
  · exact hLoaded.fetchUserWithFirestore

theorem handleEditProfile (h : a.Noted field uid text v) :
    a.handleEditProfile.Noted field uid text v := by
  have hOpened : (({ a with edits := a.edits ++ [.new] } : App).present
      (.edit a.edits.length)).Noted field uid text v := by
    refine ⟨h.document, h.home, h.task, fun s c hEdit user hMem => ?_,
      fun hField s c hEdit url hMem => ?_⟩
    · rcases getElem?_concat_cases hEdit with ⟨-, rfl⟩ | hOld
      · exact absurd hMem (by simp [EditProfileViewController.new])
      · exact h.edit s c hOld user hMem
    · rcases getElem?_concat_cases hEdit with ⟨-, rfl⟩ | hOld
      · exact absurd hMem (by simp [EditProfileViewController.new])
      · exact h.picture hField s c hOld url hMem
  refine hOpened.call _ ?_
  generalize ({ a with edits := a.edits ++ [.new] } : App).present _ = b
  cases b.net.backend.currentUser with
  | none => trivial
  | some uid => trivial

theorem imagePickerController (h : a.Noted field uid text v) (s : ℕ) (image : Option UIImage)
    (filename : Filename) :
    (a.imagePickerController s image filename).Noted field uid text
      (v.started a.net.tasks.length ⟨0, false⟩) := by
  have hStarted := h.started ⟨0, false⟩
  unfold App.imagePickerController
  split
  · exact hStarted
  · rename_i image
    have hPicked := hStarted.updateEdit s (f := .imagePicked) (fun _ => rfl) fun _ => rfl
    have hShown : ((a.updateEdit s .imagePicked).showLoader true).Noted field uid text
        (v.started a.net.tasks.length ⟨0, false⟩) := hPicked.frame rfl rfl rfl rfl
    refine (hShown.call (.updateProfileImage image filename (.imagePickerController s)) ?_).frame
      rfl rfl rfl rfl
    rw [Operation.start, Service.updateProfileImage]
    cases image.jpegData 30 with
    | none => trivial
    | some data =>
      cases ((a.updateEdit s .imagePicked).showLoader true).net.backend.currentUser with
      | none => trivial
      | some uid' => exact ⟨if_neg (Nat.lt_irrefl _), by simp⟩

theorem step {e : Event} (h : a.Noted field uid text v) (hBounded : v.Bounded)
    (hHistory : ∀ c ∈ a.edits, ∃ past, EditProfileViewController.Holds past c)
    (hStep : a.step parses e = some a') :
    ∃ text', (∀ m ≤ v.stored, text' m = text m) ∧
      a'.Noted field uid text' (v.observe field uid a e) := by
  have hSame : a'.Noted field uid text (v.observe field uid a e) →
      ∃ text', (∀ m ≤ v.stored, text' m = text m) ∧
        a'.Noted field uid text' (v.observe field uid a e) :=
    fun hNoted => ⟨text, fun _ _ => rfl, hNoted⟩
  cases step_stepped hStep with
  | launch => exact hSame h.launch
  | handleLogin email password hLogin =>
    have hShown : (a.showLoader true).Noted field uid text v := h.frame rfl rfl rfl rfl
    exact hSame (hShown.call _ trivial)
  | handleGoogleLogin hLogin => exact hSame (h.call _ trivial)
  | handleSignUp profileImage email password fullname filename hLogin =>
    refine hSame ?_
    unfold App.handleSignUp
    split
    · exact h.frame rfl rfl rfl rfl
    · split
      · exact h
      · rename_i hData
        have hShown : (a.showLoader true).Noted field uid text v := h.frame rfl rfl rfl rfl
        refine hShown.call _ ?_
        rw [Operation.start, hData]
        trivial
  | handleResetPassword email hLogin =>
    refine hSame ?_
    unfold App.handleResetPassword
    split
    · exact h
    · have hShown : (a.showLoader true).Noted field uid text v := h.frame rfl rfl rfl rfl
      exact hShown.call _ trivial
  | logout signedOut hHome =>
    refine hSame ?_
    unfold App.logout
    split
    · exact h.frame rfl rfl rfl rfl
    · exact h
  | handleEditProfile hHome => exact hSame h.handleEditProfile
  | controllerWantsToDismiss hOnboarding =>
    have hDismissed : a.dismiss.Noted field uid text v := h.frame rfl rfl rfl rfl
    refine hSame (hDismissed.call _ ?_)
    cases a.dismiss.net.backend.currentUser with
    | none => trivial
    | some uid => trivial
  | handleCancel s hEdit => exact hSame (h.frame rfl rfl rfl rfl)
  | handleUpdateUserFullname s text hEdit =>
    exact hSame (h.updateEdit s (fun _ => rfl) fun _ => rfl)
  | handleChangeProfilePhoto s hEdit => exact hSame (h.frame rfl rfl rfl rfl)
  | imagePickerController s image filename hPicker =>
    exact hSame (h.imagePickerController s image filename)
  | imagePickerControllerDidCancel s hPicker => exact hSame (h.frame rfl rfl rfl rfl)
  | handleDone s c hEdit hScreen hEnabled hHud =>
    obtain ⟨past, hHolds⟩ := hHistory c (List.mem_of_getElem? hScreen)
    exact hSame (h.handleDone (editing_of_presented hEdit hScreen) hHolds)
  | perform i outcome call backend step hTask hAnswered =>
    exact h.answer hBounded hTask hAnswered
  | deliver i call step hTask => exact hSame (h.deliver hTask)

/-- The texts of a run extend those that there were when it began. -/
theorem run (h : a.Noted field uid text v) (hBounded : v.Bounded)
    (hHistory : ∀ c ∈ a.edits, ∃ past, EditProfileViewController.Holds past c)
    (parses : URLParser) (es : List Event) :
    ∃ text', (∀ m ≤ v.stored, text' m = text m) ∧
      Always (observed (App.step parses) (Versions.observe field uid))
        (fun s => s.1.Noted field uid text' s.2) (a, v) es := by
  induction es generalizing a v text with
  | nil => exact ⟨text, fun _ _ => rfl, h⟩
  | cons e es ih =>
    cases hStep : a.step parses e with
    | none =>
      refine ⟨text, fun _ _ => rfl, h, fun t hNext => ?_⟩
      exact absurd (hStep.symm.trans (observed_eq_some hNext).1) (by simp)
    | some a' =>
      obtain ⟨text₁, hAgree, hNoted⟩ := h.step hBounded hHistory hStep
      have hHistory' : ∀ c ∈ a'.edits, ∃ past, EditProfileViewController.Holds past c := by
        refine step_edits ⟨[], EditProfileViewController.after_holds parses []⟩ ?_ hHistory hStep
        rintro c e ⟨past, hHolds⟩
        exact ⟨past ++ [e], hHolds.react parses e⟩
      obtain ⟨text₂, hAgree', hRun⟩ := ih hNoted hBounded.observe hHistory'
      have hBoth : ∀ m ≤ v.stored, text₂ m = text m := fun m hLe =>
        (hAgree' m (Nat.le_trans hLe Versions.observe_stored)).trans (hAgree m hLe)
      refine ⟨text₂, hBoth, h.congr hBounded hBoth, ?_⟩
      rintro ⟨b, w⟩ hNext
      obtain ⟨hApp, hNotes⟩ := observed_eq_some hNext
      obtain rfl : b = a' := Option.some.inj (hApp.symm.trans hStep)
      obtain rfl : w = v.observe field uid a e := hNotes
      exact hRun

end App.Noted

/--
**The notes are right.** Along every run there is one sequence of texts, such
that in every state the document has the text of the last write of the field, and
what is on the home screen, with the operations in flight, and on the edit screens
has the text of its version, if it was read or has been stored.
-/
theorem versions_have_texts (parses : URLParser) (backend : Backend) (field : ProfileField)
    (uid : Uid) (es : List App.Event) :
    ∃ text : ℕ → String, Always (observed (App.step parses) (Versions.observe field uid))
      (fun s => s.1.Noted field uid text s.2) (App.start backend, .blank) es := by
  have hFresh : (App.loaded (Net.fresh backend) []).Noted field uid
      (fun _ => ((backend.users uid).map fun doc => field.of (User.ofDictionary doc)).getD "")
      .blank := by
    refine ⟨fun doc hDoc => ?_, ?_, ?_, ?_, ?_⟩
    · have hFound : backend.users uid = some doc := hDoc
      rw [hFound]
      rfl
    · simp [App.loaded]
    · simp [App.loaded, Net.fresh]
    · simp [App.loaded]
    · simp [App.loaded]
  have hStart : (App.start backend).Noted field uid _ .blank := hFresh.launch
  have hNone : (App.start backend).edits = [] := by
    unfold App.start App.launch App.authenticateUSer
    split <;> rfl
  obtain ⟨text, -, hRun⟩ := hStart.run Versions.Bounded.blank (by simp [hNone]) parses es
  exact ⟨text, hRun⟩

end AggroApp
