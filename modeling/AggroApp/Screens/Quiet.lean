import AggroApp.Screens.Tracked

/-!
# AggroApp — when all is quiet

With no edit screen open and nothing outstanding, the home screen should show
the stored profile. It does not after a picture was picked and the screen left
by Cancel, after a write that failed, or when two pieces of work overlap. It
does when the work of edit screens is done in turn: a screen is opened, a
picture picked and a save pressed with no other upload or save outstanding, and
no picture is left behind by a Cancel.

* `cancelledPicture_not_shown` — pick a picture, wait for it, cancel.
* `quiet_home_shows_stored`    — the runs in turn, with writes that succeed.
-/

namespace AggroApp

open Async

variable {parses : URLParser} {uid : Uid} {a a' : App}

namespace App

/-- No edit screen is open, and no fetch, upload or write is outstanding. -/
def Quiet (a : App) : Prop := a.front = none ∧ ∀ task ∈ a.net.tasks, task = .ended

/-- The name and the picture on the home screen are those of the account's document. -/
def HomeShowsStored (uid : Uid) (a : App) : Prop :=
  ∃ doc user, a.net.backend.users uid = some doc ∧ a.user = some user ∧
    user.fullname = (User.ofDictionary doc).fullname ∧
    user.profileImageUrl = (User.ofDictionary doc).profileImageUrl

/-- The account is signed in, all is quiet, and the home screen holds the decoded
document. -/
def Settled (uid : Uid) (a : App) : Prop :=
  a.net.backend.currentUser = some uid ∧ a.Quiet ∧
    ∃ doc, a.net.backend.users uid = some doc ∧ a.user = some (User.ofDictionary doc)

/-- The events of edit screens, and the dismissal of an onboarding screen that may
come in between. -/
def Event.isEditing : Event → Bool
  | .handleEditProfile | .handleCancel | .handleUpdateUserFullname _
  | .handleChangeProfilePhoto | .imagePickerController _ _ | .imagePickerControllerDidCancel
  | .handleDone | .controllerWantsToDismiss | .perform _ _ | .deliver _ => true
  | _ => false

end App

-- ---------------------------------------------------------------------------
-- A picture left behind
-- ---------------------------------------------------------------------------

/-- Ann's profile is on her home screen and in her document. -/
def annAtHome : App :=
  { App.loaded (Net.fresh twoAccounts) [] with
    user := some ⟨"ann@mail", "Ann", true, "a.jpg", "a"⟩ }

theorem annAtHome_settled : annAtHome.Settled "a" :=
  ⟨rfl, ⟨rfl, by simp [annAtHome, App.loaded, Net.fresh]⟩, _, rfl, rfl⟩

/-- The edit screen is opened and a picture picked. -/
def pickedPicture : List App.Event :=
  [.handleEditProfile, .perform 0 .success, .deliver 0, .handleChangeProfilePhoto,
   .imagePickerController (some ⟨"pixels", true⟩) "name", .perform 1 (.url "name.jpg"),
   .deliver 1, .perform 1 (.url "name.jpg"), .deliver 1, .perform 1 .success, .deliver 1]

/-- The picture has reached the document, and the home screen is never told. -/
theorem cancelledPicture_not_shown :
    ¬ ∀ uid a es, a.Settled uid → (∀ e ∈ es, App.Event.isEditing e = true) →
      Always (App.step fun _ => true) (fun a => a.Quiet → a.HomeShowsStored uid) a es := by
  intro h
  have hShows := (h "a" annAtHome (pickedPicture ++ [.handleCancel]) annAtHome_settled
    (by decide)).last rfl
  obtain ⟨doc, user, hDoc, hUser, -, hUrl⟩ := hShows ⟨rfl, by decide⟩
  rw [← Option.some.inj hDoc, ← Option.some.inj hUser] at hUrl
  exact absurd hUrl (by decide)

-- ---------------------------------------------------------------------------
-- From the start to the end
-- ---------------------------------------------------------------------------

namespace App

namespace Tracked

theorem of_settled (h : a.Settled uid) : a.Tracked uid := by
  obtain ⟨hSession, ⟨hFront, hTasks⟩, doc, hDoc, hUser⟩ := h
  have hStored : a.stored uid = User.ofDictionary doc := stored_eq hDoc
  have hNoScreen : (a.copies uid).screen = none := by
    show a.front.bind _ = none
    rw [hFront]
    rfl
  refine ⟨hSession, by rw [hDoc]; rfl, by rw [hUser]; rfl, by simp [hFront], ?_, ?_⟩
  · intro c hMem
    rw [hNoScreen] at hMem
    exact absurd hMem (by simp)
  · refine .idle (fun task hMem => hTasks task hMem ▸ .ended) ⟨?_, Or.inl ?_⟩ ?_
    · simp [copies, hStored, hUser]
    · simp [copies, hStored, hUser]
    · intro c hMem
      rw [hNoScreen] at hMem
      exact absurd hMem (by simp)

/-- When all is quiet, the home screen follows, and there is no screen to hand a
picture over. -/
theorem shows (h : a.Tracked uid) (hQuiet : a.Quiet) : a.HomeShowsStored uid := by
  obtain ⟨hFront, hTasks⟩ := hQuiet
  obtain ⟨-, ⟨hName, hUrl⟩, -⟩ := h.resting fun task hMem => hTasks task hMem ▸ rfl
  obtain ⟨doc, hDoc⟩ := Option.isSome_iff_exists.mp h.stored
  obtain ⟨user, hUser⟩ := Option.isSome_iff_exists.mp h.home
  refine ⟨doc, user, hDoc, hUser, ?_, ?_⟩
  · simpa [copies, App.stored, hDoc, hUser] using hName
  · rcases hUrl with hSame | ⟨c, hMem, -⟩
    · simpa [copies, App.stored, hDoc, hUser] using hSame
    · exact absurd hMem (by simp [copies, hFront])

-- ---------------------------------------------------------------------------
-- What the user does
-- ---------------------------------------------------------------------------

theorem call_net (h : a.Tracked uid) (op : Operation Completion UserCompletion ImageCompletion) :
    (a.call op).net =
      ⟨a.net.backend, a.net.tasks ++ [Task.ofStep (op.start (some uid))]⟩ := by
  rw [← h.session]
  rfl

/-- An operation is started. -/
theorem called (h : a.Tracked uid) {op : Operation Completion UserCompletion ImageCompletion}
    (hNet : a'.net = (a.call op).net) (hUser : a'.user = a.user) (hEdits : a'.edits = a.edits)
    (hFront : a'.front = a.front)
    (hPhase : Phase uid (a.copies uid) a.edits.length
      (a.net.tasks ++ [Task.ofStep (op.start (some uid))])) : a'.Tracked uid := by
  rw [h.call_net] at hNet
  have hCopies : a'.copies uid = a.copies uid :=
    copies_congr (by rw [hNet]) hUser hFront hEdits
  have hTasks : a'.net.tasks = a.net.tasks ++ [Task.ofStep (op.start (some uid))] := by rw [hNet]
  rw [← hTasks] at hPhase
  exact h.of_phase (by rw [hNet]; exact h.session) (by rw [hNet]; exact h.stored)
    (by rw [hUser]; exact h.home) (Or.inl hFront) (by rw [hEdits]) hCopies h.screen hPhase

theorem handleEditProfile (h : a.Tracked uid) (hHome : a.presented = none) (hIdle : a.Idle) :
    a.handleEditProfile.Tracked uid := by
  obtain ⟨hTasks, hFollows, -⟩ := h.resting hIdle
  have hNet : a.handleEditProfile.net =
      ⟨a.net.backend, a.net.tasks ++ [.waiting (fetchCall uid a.edits.length)]⟩ :=
    h.call_net (.fetchUserWithFirestore (.edit a.edits.length))
  have hFront : a.handleEditProfile.front = some a.edits.length := by
    simp [App.handleEditProfile, App.front, present, call, hHome]
  have hNoScreen : (a.copies uid).screen = none := by
    simp [copies, App.front, hHome]
  have hCopies : a.handleEditProfile.copies uid =
      { a.copies uid with front := some a.edits.length, screen := some .new } := by
    rw [copies, App.stored, hNet, hFront]
    simp [App.handleEditProfile, present, call, copies, App.stored]
  refine ⟨?_, ?_, h.home, ?_, ?_, ?_⟩
  · rw [hNet]
    exact h.session
  · rw [hNet]
    exact h.stored
  · intro s hs
    rw [hFront, Option.some.injEq] at hs
    simp [App.handleEditProfile, present, call, ← hs]
  · rw [hCopies]
    intro c hMem
    rw [Option.mem_some_iff] at hMem
    subst hMem
    exact ⟨fun user hUser => absurd hUser (by simp [EditProfileViewController.new]),
      fun hChanged => absurd hChanged (by simp [EditProfileViewController.new])⟩
  · rw [hCopies, hNet]
    have hLength : a.handleEditProfile.edits.length = a.edits.length + 1 := by
      simp [App.handleEditProfile, present, call]
    rw [hLength]
    exact Phase.opened hTasks hFollows hNoScreen

theorem handleCancel (h : a.Tracked uid) {s : ℕ} (hEdit : a.presented = some (.edit s))
    (hTurn : a.InTurn .handleCancel) : (a.dismissEdit s).Tracked uid := by
  obtain ⟨hUploads, hNothing⟩ := hTurn
  have hFront : a.front = some s := by rw [App.front, hEdit]
  have hClosed : (a.dismissEdit s).front = none := by
    simp [App.front, dismissEdit, hEdit, dismissed]
  have hCopies : (a.dismissEdit s).copies uid = (a.copies uid).closed := by
    rw [copies, hClosed]
    rfl
  refine h.of_phase h.session h.stored h.home (Or.inr hClosed) rfl hCopies Copies.closed_sound ?_
  refine h.phase.close hUploads fun c hMem => hNothing (s, c) ?_
  have hScreen : a.edits[s]? = some c := by
    rw [← hMem, copies, hFront]
    rfl
  rw [editing, hEdit]
  simp [hScreen]

theorem handleUpdateUserFullname (h : a.Tracked uid) {s : ℕ} (text : String)
    (hEdit : a.presented = some (.edit s)) :
    (a.updateEdit s (.handleUpdateUserFullname text)).Tracked uid := by
  have hFront : a.front = some s := by rw [App.front, hEdit]
  refine h.edit_front hFront (fun _ => rfl) (fun _ _ => rfl) (fun _ hChanged => hChanged) ?_
  intro c hMem
  refine ⟨fun user hUser => ?_, fun _ => rfl⟩
  exact ⟨Or.inl rfl, ((h.screen c hMem).1 user hUser).2⟩

/-- A picture is picked: its upload starts, if it can be encoded. -/
theorem imagePickerController (h : a.Tracked uid) {s : ℕ} (image : Option UIImage)
    (filename : Filename) (hPicker : a.presented = some (.imagePicker s))
    (hTurn : a.InTurn (.imagePickerController image filename)) :
    (a.imagePickerController s image filename).Tracked uid := by
  cases image with
  | none => exact h
  | some image =>
    have hFront : a.front = some s := by rw [App.front, hPicker]
    have hPicked : (a.updateEdit s .imagePicked).Tracked uid :=
      h.edit_front hFront (fun _ => rfl) (fun _ hChanged => hChanged) (fun _ _ => rfl)
        fun c hMem => ⟨fun user hUser =>
          ⟨((h.screen c hMem).1 user hUser).1, Or.inl rfl⟩, (h.screen c hMem).2⟩
    have hSame : (a.imagePickerController s (some image) filename).front =
        (a.updateEdit s .imagePicked).front := by
      simp [App.imagePickerController, App.front, dismissEdit, call, showLoader, App.updateEdit,
        dismissed, hPicker]
    have hNet : (a.imagePickerController s (some image) filename).net =
        ((a.updateEdit s .imagePicked).call
          (.updateProfileImage image filename (.imagePickerController s))).net := rfl
    refine hPicked.called hNet rfl rfl hSame ?_
    cases hData : image.jpegData 30 with
    | none =>
      simp only [Operation.start, Service.updateProfileImage, hData]
      exact hPicked.phase.concat_resting .ended
    | some data =>
      obtain ⟨hTasks, hHome, hUrl⟩ := hPicked.resting hTurn
      simp only [Operation.start, Service.updateProfileImage, hData]
      refine Phase.start_uploading hTasks hHome hUrl (.storing filename data) hFront ?_
      rw [updateEdit_copies hFront]
      intro c hMem
      obtain ⟨c₀, -, rfl⟩ := Option.map_eq_some_iff.mp hMem
      rfl

/-- The onboarding ends while no edit screen is open. -/
theorem controllerWantsToDismiss (h : a.Tracked uid)
    (hOnboarding : a.presented = some .onboarding) : a.controllerWantsToDismiss.Tracked uid := by
  have hFront : a.controllerWantsToDismiss.front = a.front := by
    simp [App.controllerWantsToDismiss, App.front, dismiss, call, hOnboarding]
  have hNet : a.controllerWantsToDismiss.net =
      (a.call (.updateUserHasSeenOnboardingFirestore .controllerWantsToDismiss)).net := rfl
  exact h.called hNet rfl rfl hFront (h.phase.concat_resting .seeing)

/-- The home screen is told by a save, which may then start writes. -/
theorem told (h : a.Tracked uid) {s : ℕ} {user : User} {tasks : List AppTask}
    (hNet : a'.net = ⟨a.net.backend, tasks⟩)
    (hUser : a'.user = (a.wantsToUpdate parses s user).user)
    (hEdits : a'.edits = (a.wantsToUpdate parses s user).edits)
    (hFront : a'.front = (a.wantsToUpdate parses s user).front)
    (hUploads : ∀ task ∈ tasks, task.uploads = false)
    (hPhase : Phase uid ((a.copies uid).told user) a.edits.length tasks)
    (hUrl : user.profileImageUrl = (a.copies uid).storedUrl) : a'.Tracked uid := by
  rw [wantsToUpdate_eq] at hUser hEdits hFront
  rw [setUser_user] at hUser
  rw [setUser_edits] at hEdits
  rw [setUser_front] at hFront
  refine h.notified hNet hUser hEdits hPhase ?_
  rw [hFront]
  exact (dismissEdit_front s).imp_right fun hNone =>
    ⟨hNone, hPhase.closed_of_told hUploads hUrl⟩

theorem handleDone (h : a.Tracked uid) {s : ℕ} {c : EditProfileViewController}
    (hEdit : a.presented = some (.edit s)) (hScreen : a.edits[s]? = some c) (hIdle : a.Idle) :
    (a.handleDone parses s c).Tracked uid := by
  obtain ⟨hTasks, hHome, hUrl⟩ := h.resting hIdle
  have hFront : a.front = some s := by rw [App.front, hEdit]
  have hMem : c ∈ (a.copies uid).screen := by
    rw [copies, hFront]
    exact hScreen
  have hThis : ∀ c' ∈ (a.copies uid).screen, c' = c :=
    fun c' hMem' => Option.mem_unique hMem' hMem
  obtain ⟨hFetched, hName⟩ := h.screen c hMem
  have hNotified : ∀ user, (a.wantsToUpdate parses s user).net = ⟨a.net.backend, a.net.tasks⟩ :=
    fun user => by rw [wantsToUpdate_eq, setUser_net]; rfl
  have hSaved := c.updateUserData_saved hName
  rw [App.handleDone]
  generalize c.updateUserData = effects at hSaved
  cases hSaved with
  | nothing => exact h
  | trapped what => exact h.frame rfl rfl rfl rfl
  | image user url hUser hSome hFullname =>
    have hStored : url = (a.copies uid).storedUrl := hUrl c hMem url hSome
    have hSameName : user.fullname = (a.copies uid).storedName :=
      (hFetched user hUser).1.resolve_left (by rw [hFullname]; simp)
    refine h.told (hNotified _) rfl rfl rfl (fun task hTask => (hTasks task hTask).uploads)
      (.idle (fun task hTask => (hTasks task hTask).told) ?_ hUrl) hStored
    exact ⟨hSameName, Or.inl hStored⟩
  | fullname user fullname hUser hFullname hImage =>
    have hStored : user.profileImageUrl = (a.copies uid).storedUrl :=
      (hFetched user hUser).2.resolve_left (by rw [hImage]; simp)
    generalize hUser' : ({ user with fullname } : User) = user'
    have hPhase : Phase uid (a.copies uid) a.edits.length
        (a.net.tasks ++ [.waiting (nameCall uid s user')]) := by
      refine .start_saving hTasks hUrl ?_ ?_ (by simp) fun task hTask => List.mem_singleton.mp hTask
      · exact fun c' hMem' => hThis c' hMem' ▸ hFullname
      · exact hUser' ▸ hStored
    exact h.called rfl rfl rfl rfl hPhase
  | both user url fullname hUser hSome hFullname =>
    have hStored : url = (a.copies uid).storedUrl := hUrl c hMem url hSome
    generalize hUser' : ({ user with profileImageUrl := url, fullname } : User) = user'
    have hWrites : ∀ task ∈ [Task.waiting (nameCall uid s user'), .waiting (nameCall uid s user')],
        task = .waiting (nameCall uid s user') := by simp
    have hPhase : Phase uid ((a.copies uid).told { user with profileImageUrl := url })
        a.edits.length (a.net.tasks ++
          [.waiting (nameCall uid s user'), .waiting (nameCall uid s user')]) := by
      refine .start_saving (fun task hTask => (hTasks task hTask).told) hUrl ?_ ?_ (by simp) hWrites
      · exact fun c' hMem' => hThis c' hMem' ▸ hFullname
      · exact hUser' ▸ hStored
    refine h.told ?_ rfl rfl rfl ?_ hPhase hStored
    · -- both writes go to the document of the session
      simp only [List.foldl_cons, List.foldl_nil, save, call, Net.call, Net.start, hNotified,
        h.session, List.append_assoc]
      rfl
    · intro task hTask
      rcases List.mem_append.mp hTask with hOld | hNew
      · exact (hTasks task hOld).uploads
      · rw [hWrites task hNew]
        rfl

/-- One step in turn. -/
theorem step (h : a.Tracked uid) {event : Event} (hTurn : a.InTurn event)
    (hEditing : event.isEditing = true) (hStep : a.step parses event = some a') :
    a'.Tracked uid := by
  cases step_stepped hStep with
  | handleEditProfile hHome => exact h.handleEditProfile hHome hTurn
  | controllerWantsToDismiss hOnboarding => exact h.controllerWantsToDismiss hOnboarding
  | handleCancel s hEdit => exact h.handleCancel hEdit hTurn
  | handleUpdateUserFullname s text hEdit => exact h.handleUpdateUserFullname text hEdit
  | handleChangeProfilePhoto s hEdit =>
    exact h.frame rfl rfl rfl (by rw [App.front, App.front, hEdit])
  | imagePickerController s image filename hPicker =>
    exact h.imagePickerController image filename hPicker hTurn
  | imagePickerControllerDidCancel s hPicker =>
    exact h.frame rfl rfl rfl (by simp [App.front, dismissEdit, dismissed, hPicker])
  | handleDone s c hEdit hScreen => exact h.handleDone hEdit hScreen hTurn
  | perform i outcome call backend step hTask hAnswered => exact h.perform hTask hAnswered hTurn
  | deliver i call step hTask => exact h.deliver hTask
  | _ => exact absurd hEditing (by simp [Event.isEditing])

end Tracked

end App

-- ---------------------------------------------------------------------------
-- All quiet
-- ---------------------------------------------------------------------------

/-- With the work of edit screens done in turn, the home screen shows the stored name
and picture whenever all is quiet. -/
theorem quiet_home_shows_stored {es : List App.Event} (hSettled : a.Settled uid)
    (hEditing : ∀ e ∈ es, e.isEditing = true) (hTurn : Along (App.step parses) App.InTurn a es) :
    Always (App.step parses) (fun a => a.Quiet → a.HomeShowsStored uid) a es := by
  have hTracked : Always (App.step parses) (App.Tracked uid) a es := by
    refine Always.of_invariant ?_ (App.Tracked.of_settled hSettled) (hTurn.and_mem hEditing)
    intro b e b' hb hCond hStep
    exact hb.step hCond.1 hCond.2 hStep
  exact hTracked.mono fun b hb => hb.shows

/-- A name is typed, and both are saved. -/
def savedPicture : List App.Event :=
  pickedPicture ++
    [.handleUpdateUserFullname "Anna", .handleDone, .perform 2 .success, .deliver 2,
     .perform 3 .success, .deliver 3]

theorem savedPicture_shown :
    (run (App.step fun _ => true) annAtHome savedPicture).isSome = true ∧
      Always (App.step fun _ => true) (fun a => a.Quiet → a.HomeShowsStored "a") annAtHome
        savedPicture :=
  ⟨by decide, quiet_home_shows_stored annAtHome_settled (by decide) (by decide)⟩

end AggroApp
