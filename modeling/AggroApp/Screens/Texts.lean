import AggroApp.Screens.Versions

/-!
# AggroApp — the texts of the versions

`Versions` number the writes of a field and say of each copy where it comes from,
without looking at what is in it. Here a copy is compared with what was stored:
`text n` is the field after its write number `n`, and a copy that was read, or has
been stored, should have the text of its version. The writes of the app carry what
their completions have captured, so what one call hands on matches its notes, with
one more text if the call has written.

* `Answered.document_noted` — the document has the text of the last write.
* `Answered.step_noted`     — what is handed on has the text of its version.
-/

namespace AggroApp

open Async

def ProfileField.of : ProfileField → User → String
  | .fullname, user => user.fullname
  | .profileImageUrl, user => user.profileImageUrl

-- ---------------------------------------------------------------------------
-- Copies and their tags
-- ---------------------------------------------------------------------------

/-- A value that was read, or has been stored, is the text of its version. -/
def Tag.Matches (text : ℕ → String) (tag : Tag) (value : String) : Prop :=
  tag.isRead = true ∨ 0 < tag.version → value = text tag.version

/-- What is not stored yet matches anything. -/
theorem Tag.matches_unstored {text : ℕ → String} {value : String} :
    (⟨0, false⟩ : Tag).Matches text value := by
  intro hStored
  simp at hStored

/-- Texts that agree up to the last write are as good. -/
theorem Tag.Matches.congr {text text' : ℕ → String} {tag : Tag} {value : String} {n : ℕ}
    (h : tag.Matches text value) (hAgree : ∀ m ≤ n, text' m = text m) (hTag : tag.version ≤ n) :
    tag.Matches text' value := by
  intro hStored
  rw [hAgree tag.version hTag]
  exact h hStored

section Noted

variable (field : ProfileField) (text : ℕ → String) (tag : Tag)

/-- A save writes the name that its completion has captured; of an upload nothing is
stored before its last call. -/
def Call.Noted (call : AppCall) : Prop :=
  match call.owner with
  | .outcome (.updateUserData s user) =>
    (∃ uid, call = nameCall uid s user) ∧ tag.Matches text (field.of user)
  | .url _ =>
    tag = ⟨0, false⟩ ∧ ∀ uid data url completion,
      call = .updateData uid data (.updateProfileImage url completion) →
        data = [("profileImageUrl", .string url)]
  | _ => True

/-- The copy that the step hands on matches. -/
def Step.Noted : AppStep → Prop
  | .completed (.updateUserData _ user) _ => tag.Matches text (field.of user)
  | .fetched _ user => tag.Matches text (field.of user)
  | .uploaded _ profileImageUrl => field = .profileImageUrl → tag.Matches text profileImageUrl
  | .wait call => call.Noted field text tag
  | _ => True

def Task.Noted : AppTask → Prop
  | .waiting call => call.Noted field text tag
  | .answered _ step => step.Noted field text tag
  | .ended => True

end Noted

variable {field : ProfileField} {text text' : ℕ → String} {tag : Tag}

theorem Task.noted_ofStep {step : AppStep} (h : step.Noted field text tag) :
    (Task.ofStep step).Noted field text tag := by
  cases step with
  | wait call => exact h
  | _ => trivial

theorem Call.Noted.congr {call : AppCall} {n : ℕ} (h : call.Noted field text tag)
    (hAgree : ∀ m ≤ n, text' m = text m) (hTag : tag.version ≤ n) :
    call.Noted field text' tag := by
  unfold Call.Noted at h ⊢
  generalize call.owner = owner at h ⊢
  split
  · exact ⟨h.1, h.2.congr hAgree hTag⟩
  · exact h
  · trivial

theorem Step.Noted.congr {step : AppStep} {n : ℕ} (h : step.Noted field text tag)
    (hAgree : ∀ m ≤ n, text' m = text m) (hTag : tag.version ≤ n) :
    step.Noted field text' tag := by
  unfold Step.Noted at h ⊢
  split
  · exact h.congr hAgree hTag
  · exact h.congr hAgree hTag
  · exact fun hField => (h hField).congr hAgree hTag
  · exact Call.Noted.congr h hAgree hTag
  · trivial

theorem Task.Noted.congr {task : AppTask} {n : ℕ} (h : task.Noted field text tag)
    (hAgree : ∀ m ≤ n, text' m = text m) (hTag : tag.version ≤ n) :
    task.Noted field text' tag := by
  cases task with
  | waiting call => exact Call.Noted.congr h hAgree hTag
  | answered call step => exact Step.Noted.congr h hAgree hTag
  | ended => trivial

-- ---------------------------------------------------------------------------
-- Chains that carry no copy
-- ---------------------------------------------------------------------------

/-- The chain ends in a completion that is not that of a save. -/
def Call.IsPlain (call : AppCall) : Prop :=
  ∃ completion, call.owner = .outcome completion ∧ ∀ s user, completion ≠ .updateUserData s user

theorem Call.noted_of_plain {call : AppCall} (h : call.IsPlain) : call.Noted field text tag := by
  obtain ⟨completion, hOwner, hPlain⟩ := h
  rw [Call.Noted, hOwner]
  cases completion with
  | updateUserData s user => exact absurd rfl (hPlain s user)
  | _ => trivial

theorem Step.noted_of_plain {call : AppCall} (h : call.IsPlain) {step : AppStep}
    (hOwner : ∀ owner ∈ step.owner, owner = call.owner) : step.Noted field text tag := by
  obtain ⟨completion, hCall, hPlain⟩ := h
  rw [hCall] at hOwner
  cases step with
  | completed completion' error =>
    obtain rfl := Owner.outcome.inj (hOwner _ rfl)
    cases completion' with
    | updateUserData s user => exact absurd rfl (hPlain s user)
    | _ => trivial
  | fetched comletion user => exact absurd (hOwner _ rfl) (by simp)
  | uploaded completion' url => exact absurd (hOwner _ rfl) (by simp)
  | wait call' => exact Call.noted_of_plain ⟨completion, hOwner _ rfl, hPlain⟩
  | _ => trivial

-- ---------------------------------------------------------------------------
-- A call is carried out
-- ---------------------------------------------------------------------------

/-- The document of `uid`, if there is one, has the text of the last write. -/
def Backend.Noted (field : ProfileField) (uid : Uid) (text : ℕ → String) (stored : ℕ)
    (b : Backend) : Prop :=
  ∀ doc ∈ b.users uid, field.of (User.ofDictionary doc) = text stored

/-- The notes of a call that was carried out, if it succeeded. -/
structure Versions.Follows (field : ProfileField) (uid : Uid) (i : ℕ) (call : AppCall)
    (outcome : Outcome) (v v' : Versions) : Prop where
  success : outcome = .success → v' = v.performed field uid i call
  failure : outcome ≠ .success → v' = v

/-- Data without the field leave it alone. -/
theorem ProfileField.of_merge {data : Fields} (hData : data.lookup field.key = none)
    (doc : Document) :
    field.of (User.ofDictionary (doc.merge data)) = field.of (User.ofDictionary doc) := by
  have hKey : doc.merge data field.key = doc field.key := by rw [merge_apply, hData, Option.none_or]
  cases field with
  | fullname =>
    show ((doc.merge data "fullname").bind Value.asString).getD "" = _
    rw [show doc.merge data "fullname" = doc "fullname" from hKey]
    rfl
  | profileImageUrl =>
    show ((doc.merge data "profileImageUrl").bind Value.asString).getD "" = _
    rw [show doc.merge data "profileImageUrl" = doc "profileImageUrl" from hKey]
    rfl

section Answers

variable {uid : Uid} {v v' : Versions} {i : ℕ} {b b' : Backend} {call : AppCall}
variable {outcome : Outcome} {step : AppStep}

theorem Backend.Noted.congr (h : b.Noted field uid text v.stored)
    (hUsers : b'.users uid = b.users uid) (hStored : v'.stored = v.stored) :
    b'.Noted field uid text v'.stored := by
  intro doc hDoc
  rw [hStored]
  exact h doc (hUsers ▸ hDoc)

/-- A write has the next text. -/
theorem Backend.Noted.write (text : ℕ → String) (doc : Document) (hDoc : b'.users uid = some doc)
    (hStored : v'.stored = v.stored + 1) :
    ∃ text', (∀ m ≤ v.stored, text' m = text m) ∧ b'.Noted field uid text' v'.stored := by
  refine ⟨Function.update text (v.stored + 1) (field.of (User.ofDictionary doc)), ?_, ?_⟩
  · intro m hLe
    exact Function.update_of_ne (by omega) _ _
  · intro doc' hMem
    rw [hDoc, Option.mem_some_iff] at hMem
    rw [hStored, Function.update_self, hMem]

theorem Versions.Follows.frame (h : v.Follows field uid i call outcome v') :
    v'.home = v.home ∧ v'.edit = v.edit ∧ v'.picture = v.picture ∧
      ∀ j, j ≠ i → v'.task j = v.task j := by
  by_cases hSuccess : outcome = .success
  · rw [h.success hSuccess]
    exact (Versions.performed_frame field uid v i call).2
  · rw [h.failure hSuccess]
    exact ⟨rfl, rfl, rfl, fun _ _ => rfl⟩

theorem Answered.document_noted (h : Answered b call outcome b' step)
    (hNotes : v.Follows field uid i call outcome v') (hDoc : b.Noted field uid text v.stored) :
    ∃ text', (∀ m ≤ v.stored, text' m = text m) ∧ b'.Noted field uid text' v'.stored := by
  have hSame : b'.users uid = b.users uid → v'.stored = v.stored →
      ∃ text', (∀ m ≤ v.stored, text' m = text m) ∧ b'.Noted field uid text' v'.stored :=
    fun hUsers hStored => ⟨text, fun _ _ => rfl, hDoc.congr hUsers hStored⟩
  have hFailed : outcome ≠ .success → v'.stored = v.stored :=
    fun hFailure => by rw [hNotes.failure hFailure]
  cases h with
  | authenticated request callback user b' hAuth =>
    exact hSame (by rw [(Backend.authenticate_some hAuth).2.1]) (hFailed (by simp))
  | set u values completion =>
    have hPerformed := hNotes.success rfl
    by_cases hUid : u = uid
    · subst hUid
      refine Backend.Noted.write text values.document ?_ ?_
      · exact Function.update_self u _ _
      · rw [hPerformed, Versions.performed, if_pos rfl]
    · refine hSame (Function.update_of_ne (Ne.symm hUid) _ _) ?_
      rw [hPerformed, Versions.performed, if_neg hUid]
  | updated u data callback doc hOld =>
    have hPerformed := hNotes.success rfl
    by_cases hUid : u = uid
    · subst hUid
      cases hData : data.lookup field.key with
      | none =>
        refine ⟨text, fun _ _ => rfl, fun doc' hMem => ?_⟩
        have hNew : doc' = doc.merge data := by
          have hNow : Function.update b.users u (some (doc.merge data)) u = some doc' := hMem
          rw [Function.update_self] at hNow
          exact (Option.some.inj hNow).symm
        have hStored : v'.stored = v.stored := by
          rw [hPerformed, Versions.performed, if_neg fun hBoth => by simp [hData] at hBoth]
        rw [hNew, ProfileField.of_merge hData, hStored]
        exact hDoc doc hOld
      | some value =>
        refine Backend.Noted.write text (doc.merge data) (Function.update_self u _ _) ?_
        rw [hPerformed, Versions.performed, if_pos ⟨rfl, by rw [hData]; rfl⟩]
    · refine hSame (Function.update_of_ne (Ne.symm hUid) _ _) ?_
      rw [hPerformed, Versions.performed, if_neg fun hBoth => hUid hBoth.1]
  | read | observed | resetSent | childrenUpdated | valueSet =>
    exact hSame rfl (by rw [hNotes.success rfl]; rfl)
  | _ => exact hSame rfl (hFailed (by simp))

/-- The call that writes a value leaves it with a tag that matches it. -/
theorem Answered.update_noted {u : Uid} {data : Fields}
    {callback : UpdateCallback Completion ImageCompletion} {value : String}
    (h : Answered b (.updateData u data callback) outcome b' step)
    (hNotes : v.Follows field uid i (.updateData u data callback) outcome v')
    (hDoc' : b'.Noted field uid text' v'.stored) (hOld : (v.task i).Matches text' value)
    (hData : ∀ doc : Document, (data.lookup field.key).isSome = true →
      field.of (User.ofDictionary (doc.merge data)) = value) :
    (v'.task i).Matches text' value := by
  cases h with
  | updateFailed _ _ _ error =>
    rw [hNotes.failure (by simp)]
    exact hOld
  | updated _ _ _ doc hFound =>
    have hPerformed := hNotes.success rfl
    by_cases hWrites : u = uid ∧ (data.lookup field.key).isSome = true
    · rw [Versions.performed, if_pos hWrites] at hPerformed
      obtain ⟨rfl, hSome⟩ := hWrites
      intro _
      have hText := hDoc' (doc.merge data) (Function.update_self u _ _)
      rw [hData doc hSome, hPerformed] at hText
      rw [hPerformed]
      dsimp only
      rw [Function.update_self]
      exact hText
    · rw [Versions.performed, if_neg hWrites] at hPerformed
      rw [hPerformed]
      exact hOld

/-- What a fetch hands on was stored when it was read. -/
theorem Answered.fetch_noted {comletion : UserCompletion} (h : Answered b call outcome b' step)
    (hCall : call.owner = .value comletion) (hNotes : v.Follows field uid i call outcome v')
    (hAgree : ∀ m ≤ v.stored, text' m = text m) (hDoc : b.Noted field uid text v.stored) :
    step.Noted field text' (v'.task i) := by
  rcases Call.eq_of_owner hCall with ⟨u, rfl⟩ | ⟨u, rfl⟩
  · cases h with
    | readFailed _ _ error => trivial
    | read =>
      have hPerformed := hNotes.success rfl
      unfold DocumentCallback.run
      cases hUser : b.users u with
      | none => trivial
      | some doc =>
        show (v'.task i).Matches text' (field.of (User.ofDictionary doc))
        rw [hPerformed]
        dsimp only [Versions.performed]
        rw [Function.update_self]
        by_cases hUid : u = uid
        · subst hUid
          rw [if_pos rfl]
          intro _
          dsimp only
          rw [hAgree v.stored (Nat.le_refl v.stored)]
          exact hDoc doc hUser
        · rw [if_neg hUid]
          exact Tag.matches_unstored
  · cases h with
    | observeFailed _ _ error => trivial
    | observed =>
      have hPerformed := hNotes.success rfl
      have hTag : v'.task i = ⟨0, false⟩ := by
        rw [hPerformed]
        exact Function.update_self i _ _
      unfold EventCallback.run
      rw [hTag]
      cases (b.database u).bind Node.dictionary with
      | none => trivial
      | some dictionary => exact Tag.matches_unstored

/-- An upload has nothing stored until its last call, which stores its URL. -/
theorem Answered.upload_noted {completion : ImageCompletion} (h : Answered b call outcome b' step)
    (hCall : call.owner = .url completion) (hNotes : v.Follows field uid i call outcome v')
    (hNoted : call.Noted field text (v.task i)) (hDoc' : b'.Noted field uid text' v'.stored) :
    step.Noted field text' (v'.task i) := by
  rw [Call.Noted, hCall] at hNoted
  obtain ⟨hTag, hData⟩ := hNoted
  cases call with
  | putData filename data callback =>
    cases callback with
    | updateProfileImage u completion' =>
      cases h with
      | storeFailed | stored =>
        rw [hNotes.failure (by simp), hTag]
        exact ⟨rfl, by simp⟩
    | handleSignUp email password fullname completion' => exact absurd hCall (by simp [Call.owner])
  | downloadURL filename callback =>
    cases callback with
    | updateProfileImage u completion' =>
      cases h with
      | locateFailed => trivial
      | located _ _ image hImage =>
        rw [hNotes.failure (by simp), hTag]
        refine ⟨rfl, fun u' data url completion'' hEq => ?_⟩
        obtain ⟨-, rfl, hCallback⟩ := Call.updateData.inj hEq
        obtain ⟨rfl, -⟩ := UpdateCallback.updateProfileImage.inj hCallback
        rfl
    | handleSignUp email password fullname completion' => exact absurd hCall (by simp [Call.owner])
  | updateData u data callback =>
    cases callback with
    | direct completion' => exact absurd hCall (by simp [Call.owner])
    | updateProfileImage url completion' =>
      obtain rfl := hData u data url completion' rfl
      have hUploaded : field = .profileImageUrl → (v'.task i).Matches text' url := by
        rintro rfl
        refine h.update_noted hNotes hDoc' ?_ fun doc _ => rfl
        rw [hTag]
        exact Tag.matches_unstored
      cases h with
      | updateFailed _ _ _ error => exact hUploaded
      | updated _ _ _ doc hFound => exact hUploaded
  | getDocument u callback => cases callback <;> exact absurd hCall (by simp [Call.owner])
  | observeSingleEvent u callback => cases callback <;> exact absurd hCall (by simp [Call.owner])
  | _ => exact absurd hCall (by simp [Call.owner])

/-- What a call hands on matches the notes that are taken of it. -/
theorem Answered.step_noted (h : Answered b call outcome b' step)
    (hNotes : v.Follows field uid i call outcome v') (hBounded : v.Bounded)
    (hNoted : call.Noted field text (v.task i)) (hAgree : ∀ m ≤ v.stored, text' m = text m)
    (hDoc : b.Noted field uid text v.stored) (hDoc' : b'.Noted field uid text' v'.stored) :
    step.Noted field text' (v'.task i) := by
  cases hCall : call.owner with
  | outcome completion =>
    cases completion with
    | updateUserData s user =>
      rw [Call.Noted, hCall] at hNoted
      obtain ⟨⟨u, rfl⟩, hMatches⟩ := hNoted
      have hTag : (v'.task i).Matches text' (field.of user) := by
        refine h.update_noted hNotes hDoc' (hMatches.congr hAgree (hBounded.task i)) ?_
        intro doc hSome
        cases field with
        | fullname => rfl
        | profileImageUrl => exact absurd hSome Bool.false_ne_true
      cases h with
      | updateFailed _ _ _ error => exact hTag
      | updated _ _ _ doc hFound => exact hTag
    | _ => exact Step.noted_of_plain ⟨_, hCall, by simp⟩ h.owner
  | value comletion => exact h.fetch_noted hCall hNotes hAgree hDoc
  | url completion => exact h.upload_noted hCall hNotes hNoted hDoc'

end Answers

end AggroApp
