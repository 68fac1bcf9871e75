import AggroApp.Screens.Versions

/-!
# AggroApp — copies that can still be told

A user that the home screen may still be told is with a fetch or a save in
flight, or on the edit screen in front. Screens that are closed keep their users
to themselves. Only the opening of an edit screen, a fetch, and a save make new
copies; `Narrows` is the relation of all other changes.
-/

namespace AggroApp

open Async

variable {parses : URLParser} {a a' : App}

/-- The chain of the call is the write of a save. -/
def Call.isSave (call : AppCall) : Bool :=
  match call.owner with
  | .outcome (.updateUserData _ _) => true
  | _ => false

/-- The step hands on a user that the home screen may be told, when edit screen
`front` is in front. -/
def Step.holdsCopy (front : Option ℕ) : AppStep → Bool
  | .completed (.updateUserData _ _) _ => true
  | .fetched .home _ => true
  | .fetched (.edit s) _ => front == some s
  | .wait call => call.isSave
  | _ => false

def Task.holdsCopy (front : Option ℕ) : AppTask → Bool
  | .waiting call => call.isSave
  | .answered _ step => step.holdsCopy front
  | .ended => false

namespace App

/-- The edit screen that tells the home screen something. -/
def teller (a : App) : Event → Option ℕ
  | .deliver i =>
    match a.net.tasks[i]? with
    | some (.answered _ (.completed (.updateUserData s _) _)) => some s
    | _ => none
  | .handleDone => a.editing.map Prod.fst
  | _ => none

/-- The edit screen that is in front once the telling screen is dismissed. -/
def frontAfter (a : App) (e : Event) : Option ℕ :=
  match a.teller e with
  | some s => (a.dismissEdit s).front
  | none => a.front

theorem frontAfter_front (e : Event) : a.frontAfter e = a.front ∨ a.frontAfter e = none := by
  unfold frontAfter
  split
  · exact dismissEdit_front _
  · exact Or.inl rfl

theorem editing_front {s : ℕ} {c : EditProfileViewController} (h : a.editing = some (s, c)) :
    a.front = some s := by
  rw [front, (editing_eq_some h).1]

/-- The operation whose answer the event delivers. -/
def Event.delivers : Event → Option ℕ
  | .deliver i => some i
  | _ => none

end App

-- ---------------------------------------------------------------------------
-- Fewer copies
-- ---------------------------------------------------------------------------

/-- A copy can be told whatever is in front, or it is on its way to the screen in
front. -/
theorem Step.holdsCopy_cases {front : Option ℕ} {step : AppStep}
    (h : step.holdsCopy front = true) :
    (∀ front', step.holdsCopy front' = true) ∨
      ∃ s user, step = .fetched (.edit s) user ∧ front = some s := by
  cases step with
  | completed completion error =>
    cases completion with
    | updateUserData s user => exact Or.inl fun _ => rfl
    | _ => exact absurd h (by simp [Step.holdsCopy])
  | fetched comletion user =>
    cases comletion with
    | home => exact Or.inl fun _ => rfl
    | edit s => exact Or.inr ⟨s, user, rfl, beq_iff_eq.mp h⟩
  | wait call => exact Or.inl fun _ => h
  | _ => exact absurd h (by simp [Step.holdsCopy])

theorem Task.holdsCopy_mono {front front' : Option ℕ} (hFront : front' = front ∨ front' = none)
    {task : AppTask} (h : task.holdsCopy front' = true) : task.holdsCopy front = true := by
  rcases hFront with rfl | rfl
  · exact h
  · cases task with
    | answered call step =>
      rcases Step.holdsCopy_cases h with hAny | ⟨s, user, -, hSome⟩
      · exact hAny front
      · exact absurd hSome (by simp)
    | _ => exact h

/-- What goes on holds no more than the answer did. -/
theorem Task.holdsCopy_ofStep {front : Option ℕ} {step : AppStep}
    (h : (Task.ofStep step).holdsCopy front = true) : step.holdsCopy front = true := by
  cases step with
  | wait call => exact h
  | _ => exact absurd h (by simp [Task.ofStep, Task.holdsCopy])

/-- A fetch for an edit screen is for one of the first `n`. -/
def Owner.Below (n : ℕ) : Owner Completion UserCompletion ImageCompletion → Prop
  | .value (.edit s) => s < n
  | _ => True

def Step.Below (n : ℕ) (step : AppStep) : Prop := ∀ owner ∈ step.owner, owner.Below n

def Task.Below (n : ℕ) : AppTask → Prop
  | .waiting call => call.owner.Below n
  | .answered _ step => step.Below n
  | .ended => True

theorem Task.below_ofStep {n : ℕ} {step : AppStep} (h : step.Below n) :
    (Task.ofStep step).Below n := by
  cases step with
  | wait call => exact h call.owner rfl
  | _ => trivial

theorem Owner.Below.mono {m n : ℕ} (hLe : m ≤ n)
    {owner : Owner Completion UserCompletion ImageCompletion} (h : owner.Below m) :
    owner.Below n := by
  unfold Owner.Below at h ⊢
  split
  · exact Nat.lt_of_lt_of_le h hLe
  · trivial

theorem Task.Below.mono {m n : ℕ} (hLe : m ≤ n) {task : AppTask} (h : task.Below m) :
    task.Below n := by
  cases task with
  | waiting call => exact Owner.Below.mono hLe h
  | answered call step => exact fun owner hOwner => (h owner hOwner).mono hLe
  | ended => trivial

/-- No fetch is in flight for a screen that opens now. -/
theorem Task.holdsCopy_opened {n : ℕ} {task : AppTask} (hBelow : task.Below n)
    (h : task.holdsCopy (some n) = true) : task.holdsCopy none = true := by
  cases task with
  | answered call step =>
    rcases Step.holdsCopy_cases h with hAny | ⟨s, user, rfl, hSome⟩
    · exact hAny none
    · have hLt : s < n := hBelow (.value (.edit s)) rfl
      have hEq : n = s := Option.some.inj hSome
      exact absurd hEq (Nat.ne_of_gt hLt)
  | _ => exact h

namespace App

/-- Operation `i` has a copy to tell. -/
def Holds (a : App) (i : ℕ) : Prop :=
  ∃ task, a.net.tasks[i]? = some task ∧ task.holdsCopy a.front = true

/-- Edit screen `t` is in front, with a copy. -/
def ScreenHolds (a : App) (t : ℕ) : Prop :=
  a.front = some t ∧ ∃ c, a.edits[t]? = some c ∧ c.user.isSome = true

def Below (a : App) : Prop := ∀ task ∈ a.net.tasks, task.Below a.edits.length

/-- Nothing holds a copy in `a'` that does not hold it in `a`. -/
structure Narrows (a a' : App) : Prop where
  holds : ∀ i, a'.Holds i → a.Holds i
  screen : ∀ t, a'.ScreenHolds t → a.ScreenHolds t
  below : a.Below → a'.Below

/-- An operation that starts so has no copy to tell. -/
def Starts (n : ℕ) : AppStep → Prop
  | .wait call => call.isSave = false ∧ call.owner.Below n
  | _ => True

namespace Narrows

theorem trans {a'' : App} (h : a.Narrows a') (h' : a'.Narrows a'') : a.Narrows a'' :=
  ⟨fun i hi => h.holds i (h'.holds i hi), fun t ht => h.screen t (h'.screen t ht),
    fun hBelow => h'.below (h.below hBelow)⟩

theorem frame (hNet : a'.net.tasks = a.net.tasks) (hEdits : a'.edits = a.edits)
    (hFront : a'.front = a.front ∨ a'.front = none) : a.Narrows a' := by
  refine ⟨?_, ?_, ?_⟩
  · rintro i ⟨task, hTask, hHolds⟩
    exact ⟨task, hNet ▸ hTask, Task.holdsCopy_mono hFront hHolds⟩
  · rintro t ⟨hScreen, hFetched⟩
    rcases hFront with hSame | hNone
    · exact ⟨hSame.symm.trans hScreen, hEdits ▸ hFetched⟩
    · exact absurd (hNone.symm.trans hScreen) (by simp)
  · intro hBelow
    rw [Below, hNet, hEdits]
    exact hBelow

theorem call (op : Operation Completion UserCompletion ImageCompletion)
    (hStarts : Starts a.edits.length (op.start a.net.backend.currentUser)) :
    a.Narrows (a.call op) := by
  have hFront : (a.call op).front = a.front := rfl
  have hNew : (Task.ofStep (op.start a.net.backend.currentUser)).holdsCopy a.front = false ∧
      (Task.ofStep (op.start a.net.backend.currentUser)).Below a.edits.length := by
    generalize op.start a.net.backend.currentUser = step at hStarts
    cases step with
    | wait call => exact hStarts
    | _ => exact ⟨rfl, trivial⟩
  refine ⟨?_, fun t ht => ht, fun hBelow => forall_mem_concat hBelow hNew.2⟩
  rintro i ⟨task, hTask, hHolds⟩
  rcases getElem?_concat_cases hTask with ⟨-, rfl⟩ | hOld
  · exact absurd (hNew.1.symm.trans hHolds) (by simp)
  · exact ⟨task, hOld, hHolds⟩

theorem updateEdit (s : ℕ) {f : EditProfileViewController → EditProfileViewController}
    (hf : ∀ c, (f c).user = c.user) : a.Narrows (a.updateEdit s f) := by
  have hFront : (a.updateEdit s f).front = a.front := rfl
  refine ⟨fun i hi => hi, ?_, fun hBelow => ?_⟩
  · rintro t ⟨hScreen, c, hEdit, hUser⟩
    rcases getElem?_modify_cases hEdit with ⟨rfl, c₀, hOld, rfl⟩ | ⟨-, hOld⟩
    · exact ⟨hScreen, c₀, hOld, hf c₀ ▸ hUser⟩
    · exact ⟨hScreen, c, hOld, hUser⟩
  · show ∀ task ∈ a.net.tasks, task.Below (a.edits.modify s f).length
    rw [List.length_modify]
    exact hBelow

theorem setUser (user : User) : a.Narrows (a.setUser parses user) :=
  frame (by rw [setUser_net]) (setUser_edits user) (Or.inl (setUser_front user))

theorem wantsToUpdate (s : ℕ) (user : User) : a.Narrows (a.wantsToUpdate parses s user) := by
  have hDismissed : a.Narrows (a.dismissEdit s) := frame rfl rfl (dismissEdit_front s)
  rw [wantsToUpdate_eq]
  exact hDismissed.trans (setUser user)

theorem fetchUserWithFirestore : a.Narrows a.fetchUserWithFirestore := by
  refine call _ ?_
  cases a.net.backend.currentUser with
  | none => trivial
  | some uid => exact ⟨rfl, trivial⟩

theorem authenticationComplete : a.Narrows a.authenticationComplete := by
  have hDismissed : a.Narrows (({ a with
      log := a.log ++ [.authenticationComplete a.net.backend.currentUser] } : App).dismiss) :=
    frame rfl rfl (Or.inr rfl)
  exact hDismissed.trans fetchUserWithFirestore

theorem finishAuthentication (error : Option Error) : a.Narrows (a.finishAuthentication error) := by
  have hHidden : a.Narrows (a.showLoader false) := frame rfl rfl (Or.inl rfl)
  cases error with
  | some error => exact frame rfl rfl (Or.inl rfl)
  | none => exact hHidden.trans authenticationComplete

/-- An answer leaves the network. -/
theorem receive {i : ℕ} {call : AppCall} {step : AppStep}
    (hTask : a.net.tasks[i]? = some (.answered call step)) : a.Narrows (a.receive i step) := by
  refine ⟨?_, fun t ht => ht, fun hBelow => ?_⟩
  · rintro j ⟨task, hNow, hHolds⟩
    rcases getElem?_set_cases hNow with ⟨rfl, rfl⟩ | ⟨-, hOld⟩
    · exact ⟨_, hTask, Task.holdsCopy_ofStep hHolds⟩
    · exact ⟨task, hOld, hHolds⟩
  · exact forall_mem_set hBelow (Task.below_ofStep (hBelow _ (List.mem_of_getElem? hTask)))

theorem handleEditProfile (hHome : a.presented = none) (hBelow : a.Below) :
    a.Narrows a.handleEditProfile := by
  have hNone : a.front = none := by rw [front, hHome]
  have hOpened : a.Narrows (({ a with edits := a.edits ++ [.new] } : App).present
      (.edit a.edits.length)) := by
    have hFront : (({ a with edits := a.edits ++ [.new] } : App).present
        (.edit a.edits.length)).front = some a.edits.length := by
      rw [front, present, hHome]
      rfl
    refine ⟨?_, ?_, fun _ => ?_⟩
    · rintro i ⟨task, hTask, hHolds⟩
      rw [hFront] at hHolds
      refine ⟨task, hTask, ?_⟩
      rw [hNone]
      exact Task.holdsCopy_opened (hBelow task (List.mem_of_getElem? hTask)) hHolds
    · rintro t ⟨hScreen, c, hEdit, hUser⟩
      rw [hFront, Option.some.injEq] at hScreen
      subst hScreen
      have hNew : c = .new := by
        have hLast : (a.edits ++ [EditProfileViewController.new])[a.edits.length]? = some c := hEdit
        rw [List.getElem?_concat_length] at hLast
        exact (Option.some.inj hLast).symm
      exact absurd hUser (by simp [hNew, EditProfileViewController.new])
    · have hLe : a.edits.length ≤ (a.edits ++ [EditProfileViewController.new]).length := by simp
      exact fun task hMem => (hBelow task hMem).mono hLe
  refine hOpened.trans (call _ ?_)
  show Starts (a.edits ++ [EditProfileViewController.new]).length ((Operation.fetchUserWithFirestore
    (.edit a.edits.length)).start a.net.backend.currentUser)
  cases a.net.backend.currentUser with
  | none => trivial
  | some uid =>
    refine ⟨rfl, ?_⟩
    show a.edits.length < (a.edits ++ [EditProfileViewController.new]).length
    simp

end Narrows

end App

end AggroApp
