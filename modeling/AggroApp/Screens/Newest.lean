import AggroApp.Screens.Holders

/-!
# AggroApp — older profiles on the home screen

The home screen takes whatever it is told. A save tells it something newer than
the copies that were read before; when one of these is told later, the home
screen goes back to an older profile.

* `slowLaunch_goes_back`      — the fetch of the launch arrives after a save.
* `home_never_goes_back`      — nothing older is told as long as, whenever
  something is told, no older copy is left that can still be told.
-/

namespace AggroApp

open Async
open EditProfileViewController (tells)

variable {parses : URLParser} {a a' : App}

/-- If the event assigns a value that was read, it was not read before a write that
the home screen has been told. -/
def Versions.NeverOlder (field : ProfileField) (s : App × Versions) (e : App.Event) : Prop :=
  ∀ tag ∈ s.2.told field s.1 e, tag.isRead = true → s.2.mark ≤ tag.version

/-- If the event assigns a value to the home screen, every other copy that can still
be told and was read from the document is at least as new: with the operations in
flight, and on the edit screen that stays in front. -/
def Versions.NothingOlder (field : ProfileField) (s : App × Versions) (e : App.Event) : Prop :=
  ∀ tag ∈ s.2.told field s.1 e,
    (∀ i < s.1.net.tasks.length, some i ≠ e.delivers → ∀ task ∈ s.1.net.tasks[i]?,
      task.holdsCopy (s.1.frontAfter e) = true → (s.2.task i).isRead = true →
        tag.version ≤ (s.2.task i).version) ∧
    ∀ t ∈ s.1.frontAfter e, ∀ c ∈ s.1.edits[t]?, c.user.isSome = true →
      (s.2.edit t).isRead = true → tag.version ≤ (s.2.edit t).version

instance (field : ProfileField) (s : App × Versions) (e : App.Event) :
    Decidable (Versions.NothingOlder field s e) := by
  unfold Versions.NothingOlder
  infer_instance

-- ---------------------------------------------------------------------------
-- The slow launch
-- ---------------------------------------------------------------------------

/-- The fetch of the launch has read Ann's document, and its answer is slow. She
saves a new name, which is stored and told. -/
def slowLaunch : List App.Event :=
  [.perform 0 .success, .handleEditProfile, .perform 1 .success, .deliver 1,
   .handleUpdateUserFullname "Anna", .handleDone, .perform 2 .success, .deliver 2]

/-- What the home screen shows, and every copy that can still be told, is as new as
what the home screen has been told. -/
structure App.Current (v : Versions) (a : App) : Prop where
  below : a.Below
  home : a.user.isSome = true → v.home.Reaches v.mark
  task : ∀ i, a.Holds i → (v.task i).Reaches v.mark
  screen : ∀ t, a.ScreenHolds t → (v.edit t).Reaches v.mark

namespace App.Current

variable {field : ProfileField} {uid : Uid} {v : Versions} {e : Event}

theorem of_narrows (h : a.Current v) (hNarrows : a.Narrows a')
    (hUser : a'.user.isSome = true → a.user.isSome = true) : a'.Current v :=
  ⟨hNarrows.below h.below, fun hSome => h.home (hUser hSome),
    fun i hHolds => h.task i (hNarrows.holds i hHolds),
    fun t hHolds => h.screen t (hNarrows.screen t hHolds)⟩

/-- The home screen is told a copy, and what is left is not older. -/
theorem assign (h : a.Current v) (hNarrows : a.Narrows a') {tag : Tag} (hTag : tag.Reaches v.mark)
    (hTask : ∀ i, a'.Holds i → (v.task i).Reaches tag.version)
    (hScreen : ∀ t, a'.ScreenHolds t → (v.edit t).Reaches tag.version) :
    a'.Current (v.assign (some tag)) :=
  ⟨hNarrows.below h.below, fun _ => hTag.max fun _ => Nat.le_refl tag.version,
    fun i hHolds => (h.task i (hNarrows.holds i hHolds)).max (hTask i hHolds),
    fun t hHolds => (h.screen t (hNarrows.screen t hHolds)).max (hScreen t hHolds)⟩

/-- The user of the edit screen in front, with its picture. -/
theorem copied (h : a.Current v) {s : ℕ} {c : EditProfileViewController}
    (hFront : a.front = some s) (hScreen : a.edits[s]? = some c) (hUser : c.user.isSome = true)
    (field : ProfileField) :
    (v.copied field s c).Reaches v.mark := by
  have hEdit : (v.edit s).Reaches v.mark := h.screen s ⟨hFront, c, hScreen, hUser⟩
  unfold Versions.copied
  split
  · exact hEdit
  · split
    · exact Tag.reaches_of_not_read
    · exact hEdit

theorem neverOlder (h : a.Current v) : Versions.NeverOlder field (a, v) e := by
  intro tag hTag
  dsimp only [Versions.told] at hTag
  split at hTag
  · rename_i i
    split at hTag
    · rename_i call user hTask
      exact Option.mem_some_iff.mp hTag ▸ h.task i ⟨_, hTask, rfl⟩
    · rename_i call s user error hTask
      exact Option.mem_some_iff.mp hTag ▸ h.task i ⟨_, hTask, rfl⟩
    · obtain ⟨user, hUser, rfl⟩ := Option.map_eq_some_iff.mp hTag
      exact h.home (Option.isSome_of_eq_some hUser)
    · exact absurd hTag (by simp)
  · split at hTag
    · rename_i s c hEditing
      split at hTag
      · exact absurd hTag (by simp)
      · rename_i hTells
        have hUser : c.user.isSome = true :=
          c.user_of_saves fun hNone => hTells (by rw [hNone]; rfl)
        exact Option.mem_some_iff.mp hTag ▸
          h.copied (editing_front hEditing) (editing_eq_some hEditing).2 hUser field
    · exact absurd hTag (by simp)
  · exact absurd hTag (by simp)

end App.Current

-- ---------------------------------------------------------------------------
-- A call is carried out
-- ---------------------------------------------------------------------------

/-- A copy comes from a save that went on, or from a fetch that got through. -/
theorem Answered.holdsCopy {b b' : Backend} {call : AppCall} {outcome : Outcome} {step : AppStep}
    {front : Option ℕ} (h : Answered b call outcome b' step)
    (hHolds : step.holdsCopy front = true) :
    call.isSave = true ∨ outcome = .success ∧ ∃ comletion, call.owner = .value comletion := by
  cases step with
  | completed completion error =>
    have hOwner : .outcome completion = call.owner := h.owner _ rfl
    refine Or.inl ?_
    rw [Call.isSave, ← hOwner]
    cases completion with
    | updateUserData s user => rfl
    | _ => exact hHolds
  | wait call' =>
    have hOwner : call'.owner = call.owner := h.owner _ rfl
    refine Or.inl ?_
    rw [Call.isSave, ← hOwner]
    exact hHolds
  | fetched comletion user =>
    have hOwner : call.owner = .value comletion := (h.owner _ rfl).symm
    refine Or.inr ⟨?_, comletion, hOwner⟩
    generalize hStep : Step.fetched comletion user = step at h
    rcases Call.eq_of_owner hOwner with ⟨u, rfl⟩ | ⟨u, rfl⟩
    · cases h with
      | readFailed _ _ error => exact absurd hStep (by simp [DocumentCallback.run])
      | read => rfl
    · cases h with
      | observeFailed _ _ error => exact absurd hStep (by simp)
      | observed => rfl
  | _ => exact absurd hHolds (by simp [Step.holdsCopy])

namespace App.Current

variable {field : ProfileField} {uid : Uid} {v : Versions}

theorem answer (h : a.Current v) (hBounded : v.Bounded) {i : ℕ} {outcome : Outcome}
    {call : AppCall} {backend : Backend} {step : AppStep}
    (hTask : a.net.tasks[i]? = some (.waiting call))
    (hAnswered : Answered a.net.backend call outcome backend step) :
    (a.answer i backend call step).Current (v.observe field uid a (.perform i outcome)) := by
  have hBelow : (a.answer i backend call step).Below := by
    refine forall_mem_set h.below fun owner hOwner => ?_
    rw [hAnswered.owner owner hOwner]
    exact h.below _ (List.mem_of_getElem? hTask)
  have hCases : ∀ j, (a.answer i backend call step).Holds j →
      j = i ∧ step.holdsCopy a.front = true ∨ j ≠ i ∧ a.Holds j := by
    rintro j ⟨task, hNow, hHolds⟩
    rcases getElem?_set_cases hNow with ⟨rfl, rfl⟩ | ⟨hNe, hOld⟩
    · exact Or.inl ⟨rfl, hHolds⟩
    · exact Or.inr ⟨hNe, task, hOld, hHolds⟩
  have hSave : call.isSave = true → (v.task i).Reaches v.mark :=
    fun hIs => h.task i ⟨_, hTask, hIs⟩
  by_cases hSuccess : outcome = .success
  · subst hSuccess
    have hObserve : v.observe field uid a (.perform i .success) = v.performed field uid i call := by
      simp only [Versions.observe, Versions.follow, Versions.told, hTask]
      rfl
    obtain ⟨hMark, hHome, hEdit, -, hTasks⟩ := Versions.performed_frame field uid v i call
    rw [hObserve]
    refine ⟨hBelow, ?_, fun j hHolds => ?_, ?_⟩
    · rw [hHome, hMark]
      exact h.home
    · rw [hMark]
      rcases hCases j hHolds with ⟨rfl, hCopy⟩ | ⟨hNe, hOld⟩
      · refine Versions.performed_reaches hBounded.mark fun hNoFetch => ?_
        rcases hAnswered.holdsCopy hCopy with hIs | ⟨-, comletion, hFetch⟩
        · exact hSave hIs
        · exact absurd hFetch (hNoFetch comletion)
      · rw [hTasks j hNe]
        exact h.task j hOld
    · rw [hEdit, hMark]
      exact h.screen
  · have hObserve : v.observe field uid a (.perform i outcome) = v := by
      cases outcome with
      | success => exact absurd rfl hSuccess
      | _ => rfl
    rw [hObserve]
    refine ⟨hBelow, h.home, fun j hHolds => ?_, h.screen⟩
    rcases hCases j hHolds with ⟨rfl, hCopy⟩ | ⟨-, hOld⟩
    · rcases hAnswered.holdsCopy hCopy with hIs | ⟨hIs, -⟩
      · exact hSave hIs
      · exact absurd hIs hSuccess
    · exact h.task j hOld

end App.Current

-- ---------------------------------------------------------------------------
-- An answer is delivered
-- ---------------------------------------------------------------------------

namespace App

namespace Current

variable {field : ProfileField} {uid : Uid} {v : Versions} {i : ℕ} {call : AppCall}
variable {step : AppStep}

/-- The answer has nothing for the home screen. -/
theorem deliver_silent (h : a.Current v) (hTask : a.net.tasks[i]? = some (.answered call step))
    (hFollow : v.follow field uid a (.deliver i) = v) (hTold : v.told field a (.deliver i) = none)
    (hNarrows : (a.receive i step).Narrows a')
    (hUser : a'.user.isSome = true → a.user.isSome = true) :
    a'.Current (v.observe field uid a (.deliver i)) := by
  rw [Versions.observe, hFollow, hTold]
  exact h.of_narrows ((Narrows.receive hTask).trans hNarrows) hUser

/-- The answer has a copy for the home screen. -/
theorem deliver_told (h : a.Current v) {tag : Tag}
    (hTask : a.net.tasks[i]? = some (.answered call step)) (hEnds : Task.ofStep step = .ended)
    (hFollow : v.follow field uid a (.deliver i) = v)
    (hTold : v.told field a (.deliver i) = some tag)
    (hNothing : Versions.NothingOlder field (a, v) (.deliver i))
    (hNet : a'.net = (a.receive i step).net) (hEdits : a'.edits = a.edits)
    (hFront : a'.front = a.frontAfter (.deliver i)) :
    a'.Current (v.observe field uid a (.deliver i)) := by
  obtain ⟨hTasks, hScreens⟩ := hNothing tag hTold
  have hFrame : (a.receive i step).Narrows a' := by
    refine .frame (by rw [hNet]) hEdits ?_
    rw [hFront]
    exact a.frontAfter_front (.deliver i)
  have hNarrows : a.Narrows a' := (Narrows.receive hTask).trans hFrame
  rw [Versions.observe, hFollow, hTold]
  refine h.assign hNarrows (h.neverOlder tag hTold) ?_ ?_
  · rintro j ⟨task, hNow, hHolds⟩
    have hSet : (a.net.tasks.set i (Task.ofStep step))[j]? = some task := by
      rw [hNet] at hNow
      exact hNow
    rw [hEnds] at hSet
    rcases getElem?_set_cases hSet with ⟨-, rfl⟩ | ⟨hNe, hOld⟩
    · exact absurd hHolds (by simp [Task.holdsCopy])
    · obtain ⟨hLt, -⟩ := List.getElem?_eq_some_iff.mp hOld
      exact hTasks j hLt (fun hEq => hNe (Option.some.inj hEq)) task hOld (hFront ▸ hHolds)
  · rintro t ⟨hScreen, c, hEdit, hUser⟩
    exact hScreens t (hFront ▸ hScreen) c (hEdits ▸ hEdit) hUser

theorem deliver_completed (h : a.Current v) {completion : Completion} {error : Option Error}
    (hTask : a.net.tasks[i]? = some (.answered call (.completed completion error)))
    (hNothing : Versions.NothingOlder field (a, v) (.deliver i)) :
    ((a.receive i (.completed completion error)).complete parses error completion).Current
      (v.observe field uid a (.deliver i)) := by
  have hFollow : v.follow field uid a (.deliver i) = v := by
    simp only [Versions.follow, hTask]
  cases completion with
  | controllerWantsToDismiss =>
    cases hUser : a.user with
    | none =>
      have hTold : v.told field a (.deliver i) = none := by
        simp only [Versions.told, hTask, hUser, Option.map_none]
      have hNobody : (a.receive i (.completed .controllerWantsToDismiss error)).user = none := hUser
      rw [complete_unloaded hNobody]
      exact h.deliver_silent hTask hFollow hTold (.frame rfl rfl (Or.inl rfl)) id
    | some user =>
      have hTold : v.told field a (.deliver i) = some v.home := by
        simp only [Versions.told, hTask, hUser, Option.map_some]
      have hSame : (a.receive i (.completed .controllerWantsToDismiss error)).user = some user :=
        hUser
      rw [complete_dismissed hSame]
      refine h.deliver_told hTask rfl hFollow hTold hNothing (setUser_net _) (setUser_edits _) ?_
      rw [setUser_front, frontAfter, teller, hTask]
      rfl
  | updateUserData s user =>
    have hTold : v.told field a (.deliver i) = some (v.task i) := by
      simp only [Versions.told, hTask]
    rw [complete, wantsToUpdate_eq]
    refine h.deliver_told hTask rfl hFollow hTold hNothing (setUser_net _) (setUser_edits _) ?_
    rw [setUser_front, frontAfter, teller, hTask]
    rfl
  | handleLogin | handleSignUp =>
    have hTold : v.told field a (.deliver i) = none := by
      simp only [Versions.told, hTask]
    refine h.deliver_silent hTask hFollow hTold (.finishAuthentication error) fun hSome => ?_
    cases error <;> exact hSome
  | handleGoogleLogin =>
    have hTold : v.told field a (.deliver i) = none := by
      simp only [Versions.told, hTask]
    exact h.deliver_silent hTask hFollow hTold .authenticationComplete id
  | handleResetPassword =>
    have hTold : v.told field a (.deliver i) = none := by
      simp only [Versions.told, hTask]
    cases error <;>
      exact h.deliver_silent hTask hFollow hTold (.frame rfl rfl (Or.inl rfl)) id

/-- The user of an edit screen arrives. -/
theorem deliver_edit (h : a.Current v) {s : ℕ} {user : User}
    (hTask : a.net.tasks[i]? = some (.answered call (.fetched (.edit s) user))) :
    ((a.receive i (.fetched (.edit s) user)).updateEdit s (.setUser parses user)).Current
      (v.observe field uid a (.deliver i)) := by
  have hReceived : (a.receive i (.fetched (.edit s) user)).Current v :=
    h.of_narrows (.receive hTask) id
  have hObserve : v.observe field uid a (.deliver i) =
      { v with edit := Function.update v.edit s (v.task i) } := by
    simp only [Versions.observe, Versions.told, Versions.follow, hTask]
    rfl
  rw [hObserve]
  refine ⟨?_, hReceived.home, hReceived.task, ?_⟩
  · intro task hMem
    show task.Below (a.edits.modify s (.setUser parses user)).length
    rw [List.length_modify]
    exact hReceived.below task hMem
  · rintro t ⟨hScreen, c, hEdit, hUser⟩
    dsimp only
    rcases getElem?_modify_cases hEdit with ⟨rfl, c₀, -, rfl⟩ | ⟨hNe, hOld⟩
    · rw [Function.update_self]
      exact h.task i ⟨_, hTask, beq_iff_eq.mpr hScreen⟩
    · rw [Function.update_of_ne hNe]
      exact h.screen t ⟨hScreen, c, hOld, hUser⟩

theorem deliver (h : a.Current v) (hTask : a.net.tasks[i]? = some (.answered call step))
    (hNothing : Versions.NothingOlder field (a, v) (.deliver i)) :
    ((a.receive i step).take parses step).Current (v.observe field uid a (.deliver i)) := by
  cases step with
  | completed completion error => exact h.deliver_completed hTask hNothing
  | fetched comletion user =>
    cases comletion with
    | home =>
      have hFollow : v.follow field uid a (.deliver i) = v := by
        simp only [Versions.follow, hTask]
      have hTold : v.told field a (.deliver i) = some (v.task i) := by
        simp only [Versions.told, hTask]
      refine h.deliver_told hTask rfl hFollow hTold hNothing (setUser_net user)
        (setUser_edits user) ?_
      show (App.setUser parses (a.receive i _) user).front = _
      rw [setUser_front, frontAfter, teller, hTask]
      rfl
    | edit s => exact h.deliver_edit hTask
  | uploaded completion url =>
    -- the picture that the screen has is its own
    have hObserve : v.observe field uid a (.deliver i) =
        { v with picture := Function.update v.picture completion.1 (v.task i).version } := by
      simp only [Versions.observe, Versions.told, Versions.follow, hTask]
      rfl
    have hPicture : (a.receive i (.uploaded completion url)).Narrows
        ((a.receive i (.uploaded completion url)).take parses (.uploaded completion url)) :=
      (Narrows.updateEdit completion.1 (f := .imageUploaded url) fun _ => rfl).trans
        (.frame rfl rfl (Or.inl rfl))
    have hCurrent := h.of_narrows ((Narrows.receive hTask).trans hPicture) id
    rw [hObserve]
    exact ⟨hCurrent.below, hCurrent.home, hCurrent.task, hCurrent.screen⟩
  | _ =>
    have hFollow : v.follow field uid a (.deliver i) = v := by
      simp only [Versions.follow, hTask]
    have hTold : v.told field a (.deliver i) = none := by
      simp only [Versions.told, hTask]
    exact h.deliver_silent hTask hFollow hTold (.frame rfl rfl (Or.inl rfl)) id

end Current

end App

-- ---------------------------------------------------------------------------
-- A save
-- ---------------------------------------------------------------------------

namespace App

theorem handleDone_below (h : a.Below) (s : ℕ) (c : EditProfileViewController) :
    (a.handleDone parses s c).Below := by
  refine handleDone_keeps (I := Below) h fun b hb effect _ => ?_
  cases effect with
  | wantsToUpdate user => exact (Narrows.wantsToUpdate s user).below hb
  | updateUserData user =>
    refine forall_mem_concat hb (Task.below_ofStep ?_)
    rw [Operation.start]
    cases b.net.backend.currentUser with
    | none => exact fun owner hOwner => absurd hOwner (by simp [Service.updateUserData, Step.owner])
    | some uid => exact fun owner hOwner => Option.mem_some_iff.mp hOwner ▸ trivial
  | trap what => exact hb

variable {field : ProfileField} {uid : Uid} {v : Versions}

/-- An operation in flight after a save was there before, or writes the user of the
screen. -/
theorem handleDone_task {s : ℕ} {c : EditProfileViewController}
    (hEditing : a.editing = some (s, c)) {j : ℕ} {task : AppTask}
    (hTask : (a.handleDone parses s c).net.tasks[j]? = some task) :
    a.net.tasks[j]? = some task ∧ (v.follow field uid a .handleDone).task j = v.task j ∨
      c.user.isSome = true ∧
        (v.follow field uid a .handleDone).task j = v.captured field s c := by
  have hFollow : (v.follow field uid a .handleDone).task j =
      if j < a.net.tasks.length then v.task j else v.captured field s c := by
    simp only [Versions.follow, Versions.started, hEditing]
  have hExtends : a.Extends (a.handleDone parses s c) := .handleDone s c
  obtain ⟨started, hTasks, -⟩ := hExtends
  by_cases hLt : j < a.net.tasks.length
  · refine Or.inl ⟨?_, hFollow.trans (if_pos hLt)⟩
    rwa [hTasks, List.getElem?_append_left hLt] at hTask
  · refine Or.inr ⟨c.user_of_saves fun hNone => hLt ?_, hFollow.trans (if_neg hLt)⟩
    have hSame : a.handleDone parses s c = a := by rw [handleDone, hNone]; rfl
    rw [hSame] at hTask
    exact (List.getElem?_eq_some_iff.mp hTask).1

namespace Current

/-- The writes that the save starts have captured the user of the screen; the home
screen is not looked at yet. -/
theorem handleDone_follow (h : a.Current v) (parses : URLParser) (field : ProfileField) (uid : Uid)
    {s : ℕ} {c : EditProfileViewController} (hEditing : a.editing = some (s, c)) :
    ({ a.handleDone parses s c with user := a.user } : App).Current
      (v.follow field uid a .handleDone) := by
  obtain ⟨hEdit, hScreen⟩ := editing_eq_some hEditing
  have hLower : (a.handleDone parses s c).front = a.front ∨
      (a.handleDone parses s c).front = none := by
    by_cases hTells : tells c.updateUserData = []
    · exact Or.inl (handleDone_silent hTells).2
    · exact Or.inr (handleDone_front hEdit hTells)
  have hFollow : (v.follow field uid a .handleDone).mark = v.mark ∧
      (v.follow field uid a .handleDone).home = v.home ∧
      (v.follow field uid a .handleDone).edit = v.edit := by
    simp only [Versions.follow, Versions.started, hEditing, and_self]
  obtain ⟨hMark, hHome, hEdits⟩ := hFollow
  refine ⟨handleDone_below h.below s c, ?_, ?_, ?_⟩
  · rw [hHome, hMark]
    exact h.home
  · rintro j ⟨task, hNow, hHolds⟩
    rw [hMark]
    rcases handleDone_task hEditing hNow with ⟨hTask, hTag⟩ | ⟨hUser, hTag⟩
    · rw [hTag]
      exact h.task j ⟨task, hTask, Task.holdsCopy_mono hLower hHolds⟩
    · rw [hTag]
      cases field with
      | fullname => exact Tag.reaches_of_not_read
      | profileImageUrl => exact h.copied (editing_front hEditing) hScreen hUser .profileImageUrl
  · rintro t ⟨hShown, hFetched⟩
    rw [hEdits, hMark]
    refine h.screen t ⟨?_, handleDone_edits s c ▸ hFetched⟩
    rcases hLower with hSame | hNone
    · exact hSame.symm.trans hShown
    · exact absurd (hNone.symm.trans hShown) (by simp)

theorem handleDone (h : a.Current v) {s : ℕ} {c : EditProfileViewController}
    (hEditing : a.editing = some (s, c))
    (hNothing : Versions.NothingOlder field (a, v) .handleDone) :
    (a.handleDone parses s c).Current (v.observe field uid a .handleDone) := by
  have hWritten := h.handleDone_follow parses field uid hEditing
  by_cases hTells : tells c.updateUserData = []
  · have hTold : v.told field a .handleDone = none := by
      simp only [Versions.told, hEditing, if_pos hTells]
    rw [Versions.observe, hTold]
    refine hWritten.of_narrows (.frame rfl rfl (Or.inl rfl)) fun hSome => ?_
    rwa [(handleDone_silent hTells).1] at hSome
  · have hTold : v.told field a .handleDone = some (v.copied field s c) := by
      simp only [Versions.told, hEditing, if_neg hTells]
    have hMark : (v.follow field uid a .handleDone).mark = v.mark := by
      simp only [Versions.follow, Versions.started, hEditing]
    obtain ⟨hEdit, -⟩ := editing_eq_some hEditing
    have hFront : (a.handleDone parses s c).front = none := handleDone_front hEdit hTells
    have hAfter : a.frontAfter .handleDone = none := by
      rw [frontAfter, teller, hEditing, Option.map_some]
      dsimp only
      rw [front, dismissEdit, hEdit]
      simp [dismissed]
    have hFrame : Narrows { a.handleDone parses s c with user := a.user }
        (a.handleDone parses s c) := .frame rfl rfl (Or.inl rfl)
    obtain ⟨hOthers, -⟩ := hNothing _ hTold
    rw [Versions.observe, hTold]
    refine hWritten.assign hFrame ?_ ?_ ?_
    · rw [hMark]
      exact h.neverOlder _ hTold
    · rintro j ⟨task, hNow, hHolds⟩
      rcases handleDone_task hEditing hNow with ⟨hTask, hTag⟩ | ⟨-, hTag⟩
      · obtain ⟨hLt, -⟩ := List.getElem?_eq_some_iff.mp hTask
        rw [hFront] at hHolds
        rw [hTag]
        exact hOthers j hLt (by simp [Event.delivers]) task hTask (hAfter ▸ hHolds)
      · rw [hTag]
        cases field with
        | fullname => exact Tag.reaches_of_not_read
        | profileImageUrl => exact fun _ => Nat.le_refl _
    · rintro t ⟨hShown, -⟩
      exact absurd (hFront.symm.trans hShown) (by simp)

end Current

end App

-- ---------------------------------------------------------------------------
-- Steps and runs
-- ---------------------------------------------------------------------------

theorem Operation.upload_starts (n : ℕ) (session : Option Uid) (image : UIImage)
    (filename : Filename) (s : ℕ) :
    App.Starts n
      ((Operation.updateProfileImage image filename (.imagePickerController s)).start session) := by
  rw [Operation.start, Service.updateProfileImage]
  cases image.jpegData 30 with
  | none => trivial
  | some data =>
    cases session with
    | none => trivial
    | some uid => exact ⟨rfl, trivial⟩

namespace App.Current

variable {field : ProfileField} {uid : Uid} {v : Versions} {e : Event}

theorem launch (v : Versions) (net : AppNet) (log : List Notice) :
    (App.launch net log).Current v := by
  have hLoaded : (loaded net.restart log).Current v := by
    refine ⟨by simp [Below, loaded, Net.restart], by simp [loaded], ?_, ?_⟩
    · rintro i ⟨task, hTask, -⟩
      exact absurd hTask (by simp [loaded, Net.restart])
    · rintro t ⟨hFront, -⟩
      exact absurd hFront (by simp [front, loaded])
  unfold App.launch authenticateUSer
  split
  · exact hLoaded.of_narrows (.frame rfl rfl (Or.inr rfl)) id
  · exact hLoaded.of_narrows .fetchUserWithFirestore id

/-- An upload has nothing that was read. -/
theorem started (h : a.Current v) (n : ℕ) : a.Current (v.started n ⟨0, false⟩) := by
  refine ⟨h.below, h.home, fun i hHolds => ?_, h.screen⟩
  dsimp only [Versions.started]
  split
  · exact h.task i hHolds
  · exact Tag.reaches_of_not_read

theorem step (h : a.Current v) (hBounded : v.Bounded)
    (hNothing : Versions.NothingOlder field (a, v) e) (hStep : a.step parses e = some a') :
    a'.Current (v.observe field uid a e) := by
  -- apart from the backends' steps and saves nothing is noted
  cases step_stepped hStep with
  | launch => exact launch v a.net a.log
  | handleLogin email password hLogin =>
    have hShown : a.Narrows (a.showLoader true) := .frame rfl rfl (Or.inl rfl)
    exact h.of_narrows (hShown.trans (.call _ ⟨rfl, trivial⟩)) id
  | handleGoogleLogin hLogin => exact h.of_narrows (.call _ ⟨rfl, trivial⟩) id
  | handleSignUp profileImage email password fullname filename hLogin =>
    unfold App.handleSignUp
    split
    · exact h.of_narrows (.frame rfl rfl (Or.inl rfl)) id
    · split
      · exact h
      · rename_i hData
        have hShown : a.Narrows (a.showLoader true) := .frame rfl rfl (Or.inl rfl)
        refine h.of_narrows (hShown.trans (.call _ ?_)) id
        rw [Operation.start, hData]
        exact ⟨rfl, trivial⟩
  | handleResetPassword email hLogin =>
    unfold App.handleResetPassword
    split
    · exact h
    · have hShown : a.Narrows (a.showLoader true) := .frame rfl rfl (Or.inl rfl)
      exact h.of_narrows (hShown.trans (.call _ ⟨rfl, trivial⟩)) id
  | logout signedOut hHome =>
    unfold App.logout
    split
    · refine h.of_narrows (.frame rfl rfl (Or.inr ?_)) id
      rw [front, presentLoginController, present, hHome]
      rfl
    · exact h
  | handleEditProfile hHome => exact h.of_narrows (.handleEditProfile hHome h.below) id
  | controllerWantsToDismiss hOnboarding =>
    have hDismissed : a.Narrows a.dismiss := .frame rfl rfl (Or.inr rfl)
    refine h.of_narrows (hDismissed.trans (.call _ ?_)) id
    cases a.dismiss.net.backend.currentUser with
    | none => trivial
    | some uid => exact ⟨rfl, trivial⟩
  | handleCancel s hEdit => exact h.of_narrows (.frame rfl rfl (dismissEdit_front s)) id
  | handleUpdateUserFullname s text hEdit =>
    exact h.of_narrows (.updateEdit s fun _ => rfl) id
  | handleChangeProfilePhoto s hEdit =>
    have hFront : ({ a with presented := some (.imagePicker s) } : App).front = a.front := by
      rw [front, front, hEdit]
    exact h.of_narrows (.frame rfl rfl (Or.inl hFront)) id
  | imagePickerController s image filename hPicker =>
    refine started ?_ _
    unfold App.imagePickerController
    split
    · exact h
    · rename_i image
      have hPicked : a.Narrows (a.updateEdit s .imagePicked) := .updateEdit s fun _ => rfl
      have hShown : a.Narrows ((a.updateEdit s .imagePicked).showLoader true) :=
        hPicked.trans (.frame rfl rfl (Or.inl rfl))
      have hCalled := hShown.trans (.call (.updateProfileImage image filename
        (.imagePickerController s)) (Operation.upload_starts _ _ image filename s))
      exact h.of_narrows (hCalled.trans (.frame rfl rfl (dismissEdit_front s))) id
  | imagePickerControllerDidCancel s hPicker =>
    exact h.of_narrows (.frame rfl rfl (dismissEdit_front s)) id
  | handleDone s c hEdit hScreen hEnabled hHud =>
    have hEditing : a.editing = some (s, c) := editing_of_presented hEdit hScreen
    exact h.handleDone hEditing hNothing
  | perform i outcome call backend step hTask hAnswered =>
    exact h.answer hBounded hTask hAnswered
  | deliver i call step hTask => exact h.deliver hTask hNothing

end App.Current

end AggroApp
