import AggroApp.Model.Net

/-!
# AggroApp — the two storage back ends

Registration, onboarding and fetching exist twice, on the Realtime Database and
on Firestore. `Both` runs the two variants side by side: the same operations are
called, Auth gives the same answers, corresponding calls are carried out at the
same time, and nothing but Auth and the profile write of a registration fails.

The two decode a stored profile to the same user. They part on an account whose
profile write has not succeeded and that marks its onboarding: a path below its
uid comes into being in the Realtime Database, while `updateData` finds no
document in Firestore.

* `failedProfile_parts`  — such an account is fetched from one of the two only.
* `back_ends_agree`      — on all other accounts every fetch delivers the same.
-/

namespace AggroApp

open Async

variable {κ υ ι : Type}

/-- The same app on the Realtime Database and on Firestore. -/
structure Both (κ υ ι : Type) where
  firebase : Net κ υ ι
  firestore : Net κ υ ι

namespace Both

inductive Event (κ υ : Type)
  | register (email password fullname profileImageUrl : String) (completion : κ)
  | logUserIn (email password : String) (completion : κ)
  | signOut
  | updateUserHasSeenOnboarding (completion : κ)
  | fetchUser (comletion : υ)
  | perform (i : ℕ) (outcome : Outcome)
  | deliver (i : ℕ)
  deriving DecidableEq, Repr

/-- The event on the Realtime Database. -/
def Event.firebase : Event κ υ → Net.Event κ υ ι
  | .register email password fullname _ completion =>
    .call (.registerUserWithFirebase email password fullname completion)
  | .logUserIn email password completion => .call (.logUserIn email password completion)
  | .signOut => .session none
  | .updateUserHasSeenOnboarding completion => .call (.updateUserHasSeenOnboarding completion)
  | .fetchUser comletion => .call (.fetchUser comletion)
  | .perform i outcome => .perform i outcome
  | .deliver i => .deliver i

/-- The event on Firestore, with the outcome that the backend step has there. -/
def Event.firestore (answer : ℕ → Outcome → Outcome) : Event κ υ → Net.Event κ υ ι
  | .register email password fullname profileImageUrl completion =>
    .call (.registerUserWithFirestore email password fullname profileImageUrl completion)
  | .logUserIn email password completion => .call (.logUserIn email password completion)
  | .signOut => .session none
  | .updateUserHasSeenOnboarding completion =>
    .call (.updateUserHasSeenOnboardingFirestore completion)
  | .fetchUser comletion => .call (.fetchUserWithFirestore comletion)
  | .perform i outcome => .perform i (answer i outcome)
  | .deliver i => .deliver i

/-- The answer of `updateData` on a missing document. -/
def notFound : Error := ⟨"No document to update"⟩

/-- Firestore answers like the Realtime Database, but it does not update a document
that is missing. -/
def answer (n : Net κ υ ι) (i : ℕ) (outcome : Outcome) : Outcome :=
  match n.tasks[i]? with
  | some (.waiting (.updateData uid _ _)) =>
    if n.backend.users uid = none then .failure notFound else outcome
  | _ => outcome

/-- A backend step that may fail for an outside reason. -/
def mayFail : Task κ υ ι → Bool
  | .waiting (.auth _ _) => true
  | .waiting (.updateChildValues _ _ _) => true
  | _ => false

/-- The event is the failure of another backend step. -/
def FailsOutside (s : Both κ υ ι) : Event κ υ → Prop
  | .perform i (.failure _) => ∀ task ∈ s.firebase.tasks[i]?, mayFail task = false
  | _ => False

instance (s : Both κ υ ι) (e : Event κ υ) : Decidable (s.FailsOutside e) := by
  unfold FailsOutside
  split <;> infer_instance

def step (s : Both κ υ ι) (e : Event κ υ) : Option (Both κ υ ι) :=
  if s.FailsOutside e then
    none
  else
    (s.firebase.step e.firebase).bind fun firebase =>
      (s.firestore.step (e.firestore (answer s.firestore))).map fun firestore =>
        ⟨firebase, firestore⟩

theorem step_eq_some {s t : Both κ υ ι} {e : Event κ υ} (h : s.step e = some t) :
    ¬ s.FailsOutside e ∧ s.firebase.step e.firebase = some t.firebase ∧
      s.firestore.step (e.firestore (answer s.firestore)) = some t.firestore := by
  obtain ⟨hFails, hBoth⟩ := Option.ite_none_left_eq_some.mp h
  obtain ⟨firebase, hFirebase, hRest⟩ := Option.bind_eq_some_iff.mp hBoth
  obtain ⟨firestore, hFirestore, rfl⟩ := Option.map_eq_some_iff.mp hRest
  exact ⟨hFails, hFirebase, hFirestore⟩

/-- Both start on the same backend. -/
def start (backend : Backend) : Both κ υ ι := ⟨Net.fresh backend, Net.fresh backend⟩

end Both

/-- Notes of a run: the accounts whose profile write has succeeded, and those that
have marked their onboarding. -/
structure Onboarded where
  profiled : List Uid
  marked : List Uid
  deriving DecidableEq, Repr

namespace Onboarded

def nobody : Onboarded := ⟨[], []⟩

def observe (s : Both κ υ ι) (e : Both.Event κ υ) (notes : Onboarded) : Onboarded :=
  match e with
  | .perform i .success =>
    match s.firebase.tasks[i]? with
    | some (.waiting (.updateChildValues (.child uid) _ _)) =>
      { notes with profiled := uid :: notes.profiled }
    | some (.waiting (.setValue uid _ _ _)) => { notes with marked := uid :: notes.marked }
    | _ => notes
  | _ => notes

/-- The account has marked its onboarding, and its profile write has not succeeded. -/
def MarkedOnly (notes : Onboarded) (uid : Uid) : Prop :=
  uid ∈ notes.marked ∧ uid ∉ notes.profiled

instance (notes : Onboarded) (uid : Uid) : Decidable (notes.MarkedOnly uid) :=
  inferInstanceAs (Decidable (_ ∧ _))

end Onboarded

/-- Two users that differ in the picture at most. -/
structure SameProfile (user user' : User) : Prop where
  uid : user.uid = user'.uid
  email : user.email = user'.email
  fullname : user.fullname = user'.fullname
  hasSeenOnboarding : user.hasSeenOnboarding = user'.hasSeenOnboarding

/-- Both callbacks deliver the same profile, or neither delivers any. -/
inductive SameDelivery : Step κ υ ι → Step κ υ ι → Prop
  | neither : SameDelivery .quit .quit
  | both (comletion : υ) (user user' : User) (hSame : SameProfile user user') :
    SameDelivery (.fetched comletion user) (.fetched comletion user')

/-- What the two callbacks of a fetch for `uid` do with their answers. -/
def FetchAnswers (notes : Onboarded) (uid : Uid) (comletion : υ) (step step' : Step κ υ ι) : Prop :=
  if notes.MarkedOnly uid then
    step = .fetched comletion ⟨"", "", true, "", uid⟩ ∧ step' = .quit
  else
    SameDelivery step step'

/-- Whenever a fetch is answered, its two answers satisfy `P`. -/
def FetchesAnswered (P : Onboarded → Uid → υ → Step κ υ ι → Step κ υ ι → Prop)
    (s : Both κ υ ι × Onboarded) (e : Both.Event κ υ) : Prop :=
  ∀ t, s.1.step e = some t → ∀ i outcome, e = .perform i outcome → ∀ uid comletion,
    s.1.firebase.tasks[i]? = some (.waiting (.observeSingleEvent uid (.fetchUser comletion))) →
      ∃ call call' step step', t.firebase.tasks[i]? = some (.answered call step) ∧
        t.firestore.tasks[i]? = some (.answered call' step') ∧ P s.2 uid comletion step step'

-- ---------------------------------------------------------------------------
-- The failed profile
-- ---------------------------------------------------------------------------

/-- Ann's profile write fails; her account is there, and she marks her onboarding. -/
def failedProfile : List (Both.Event Unit Unit) :=
  [.register "ann@mail" "secret" "Ann" "a.jpg" (),
   .perform 0 (.signedIn ⟨"a", some "ann@mail", none, none⟩), .deliver 0,
   .perform 0 (.failure ⟨"denied"⟩), .deliver 0, .updateUserHasSeenOnboarding (),
   .perform 1 .success, .deliver 1, .fetchUser ()]

/-- What the two back ends hold for the account `uid`. -/
inductive Kept (notes : Onboarded) (uid : Uid) : Option Node → Option Document → Prop
  | absent (hMarked : uid ∉ notes.marked) (hProfiled : uid ∉ notes.profiled) :
    Kept notes uid none none
  | markedOnly (dictionary : Document) (hMarked : notes.MarkedOnly uid)
      (hUser : User.ofRecord uid dictionary = ⟨"", "", true, "", uid⟩) :
    Kept notes uid (some (.children dictionary)) none
  | profiled (dictionary doc : Document) (hProfiled : uid ∈ notes.profiled)
      (hSame : SameProfile (User.ofRecord uid dictionary) (User.ofDictionary doc)) :
    Kept notes uid (some (.children dictionary)) (some doc)

namespace Kept

variable {notes notes' : Onboarded} {uid : Uid} {node : Option Node} {doc : Option Document}

/-- Notes on other accounts do not matter. -/
theorem congr (h : Kept notes uid node doc) (hMarked : uid ∈ notes'.marked ↔ uid ∈ notes.marked)
    (hProfiled : uid ∈ notes'.profiled ↔ uid ∈ notes.profiled) : Kept notes' uid node doc := by
  cases h with
  | absent hNot hNot' =>
    exact .absent (fun hMem => hNot (hMarked.mp hMem)) fun hMem => hNot' (hProfiled.mp hMem)
  | markedOnly dictionary hOnly hUser =>
    exact .markedOnly dictionary
      ⟨hMarked.mpr hOnly.1, fun hMem => hOnly.2 (hProfiled.mp hMem)⟩ hUser
  | profiled dictionary doc hMem hSame => exact .profiled dictionary doc (hProfiled.mpr hMem) hSame

/-- The profile writes of a registration. -/
theorem profile (notes : Onboarded) (uid : Uid) (node : Option Node)
    (email fullname profileImageUrl : String) :
    Kept { notes with profiled := uid :: notes.profiled } uid
      (some (.children ((Node.contents node).merge (recordValues email fullname))))
      (some (profileValues email fullname profileImageUrl uid).document) :=
  .profiled _ _ List.mem_cons_self ⟨rfl, rfl, rfl, rfl⟩

/-- Onboarding on a document that is missing. -/
theorem mark (h : Kept notes uid node none) :
    Kept { notes with marked := uid :: notes.marked } uid
      (some (.children ((Node.contents node).merge [("hasSeenOnboarding", .bool true)]))) none := by
  cases h with
  | absent hNot hNot' => exact .markedOnly _ ⟨List.mem_cons_self, hNot'⟩ rfl
  | markedOnly dictionary hOnly hUser =>
    have hMerged : User.ofRecord uid (dictionary.merge [("hasSeenOnboarding", .bool true)]) =
        { User.ofRecord uid dictionary with hasSeenOnboarding := true } := rfl
    exact .markedOnly _ ⟨List.mem_cons_self, hOnly.2⟩ (by rw [Node.contents, hMerged, hUser])

/-- Onboarding on a document that exists. -/
theorem update {doc : Document} (h : Kept notes uid node (some doc)) :
    Kept { notes with marked := uid :: notes.marked } uid
      (some (.children ((Node.contents node).merge [("hasSeenOnboarding", .bool true)])))
      (some (doc.merge [("hasSeenOnboarding", .bool true)])) := by
  cases h with
  | profiled dictionary _ hProfiled hSame =>
    exact .profiled _ _ hProfiled ⟨hSame.uid, hSame.email, hSame.fullname, rfl⟩

/-- The answers of a fetch. -/
theorem answers (h : Kept notes uid node doc) (comletion : υ) :
    FetchAnswers notes uid comletion
      ((EventCallback.fetchUser comletion).run uid node : Step κ υ ι)
      ((DocumentCallback.fetchUserWithFirestore comletion).run (some doc) none) := by
  unfold FetchAnswers
  cases h with
  | absent hNot hNot' =>
    rw [if_neg fun hOnly => hNot hOnly.1]
    exact .neither
  | markedOnly dictionary hOnly hUser =>
    rw [if_pos hOnly, ← hUser]
    exact ⟨rfl, rfl⟩
  | profiled dictionary doc hProfiled hSame =>
    rw [if_neg fun hOnly => hOnly.2 hProfiled]
    exact .both comletion _ _ hSame

end Kept

-- ---------------------------------------------------------------------------
-- Corresponding operations
-- ---------------------------------------------------------------------------

inductive TwinCallback : AuthCallback κ → AuthCallback κ → Prop
  | logUserIn (completion : κ) : TwinCallback (.logUserIn completion) (.logUserIn completion)
  | register (email fullname profileImageUrl : String) (completion : κ) :
    TwinCallback (.registerUserWithFirebase email fullname completion)
      (.registerUserWithFirestore email fullname profileImageUrl completion)

/-- A call on the Realtime Database, and the one that does the same on Firestore. -/
inductive TwinCall : Call κ υ ι → Call κ υ ι → Prop
  | auth (request : AuthRequest) (callback callback' : AuthCallback κ)
      (h : TwinCallback callback callback') :
    TwinCall (.auth request callback) (.auth request callback')
  | profile (uid : Uid) (email fullname profileImageUrl : String) (completion : κ) :
    TwinCall (.updateChildValues (.child uid) (recordValues email fullname) completion)
      (.setData uid (profileValues email fullname profileImageUrl uid) completion)
  | mark (uid : Uid) (completion : κ) :
    TwinCall (.setValue uid "hasSeenOnboarding" (.bool true) completion)
      (.updateData uid [("hasSeenOnboarding", .bool true)] (.direct completion))
  | fetch (uid : Uid) (comletion : υ) :
    TwinCall (.observeSingleEvent uid (.fetchUser comletion))
      (.getDocument uid (.fetchUserWithFirestore comletion))

/-- The two operations go on with corresponding calls, or both are over. -/
inductive TwinStep : Step κ υ ι → Step κ υ ι → Prop
  | wait (call call' : Call κ υ ι) (h : TwinCall call call') : TwinStep (.wait call) (.wait call')
  | stop (step step' : Step κ υ ι) (h : Task.ofStep step = .ended)
      (h' : Task.ofStep step' = .ended) : TwinStep step step'

inductive Twin : Task κ υ ι → Task κ υ ι → Prop
  | waiting (call call' : Call κ υ ι) (h : TwinCall call call') :
    Twin (.waiting call) (.waiting call')
  | answered (call call' : Call κ υ ι) (step step' : Step κ υ ι) (h : TwinStep step step') :
    Twin (.answered call step) (.answered call' step')
  | ended : Twin .ended .ended

theorem Twin.ofStep {step step' : Step κ υ ι} (h : TwinStep step step') :
    Twin (Task.ofStep step) (Task.ofStep step') := by
  cases h with
  | wait call call' hCall => exact .waiting call call' hCall
  | stop step step' h h' =>
    rw [h, h']
    exact .ended

theorem TwinCallback.failed {callback callback' : AuthCallback κ}
    (h : TwinCallback callback callback') (error : Error) :
    TwinStep (callback.run none (some error) : Step κ υ ι) (callback'.run none (some error)) := by
  cases h <;> exact .stop _ _ rfl rfl

theorem TwinCallback.granted {callback callback' : AuthCallback κ}
    (h : TwinCallback callback callback') (user : AuthUser) :
    TwinStep (callback.run (some user) none : Step κ υ ι) (callback'.run (some user) none) := by
  cases h with
  | logUserIn completion => exact .stop _ _ rfl rfl
  | register email fullname url completion =>
    exact .wait _ _ (.profile user.uid email fullname url completion)

-- ---------------------------------------------------------------------------
-- The simulation
-- ---------------------------------------------------------------------------

/-- The two runs correspond. -/
structure Both.Sound (s : Both κ υ ι × Onboarded) : Prop where
  session : s.1.firestore.backend.currentUser = s.1.firebase.backend.currentUser
  stores : ∀ uid, Kept s.2 uid (s.1.firebase.backend.database uid)
    (s.1.firestore.backend.users uid)
  tasks : List.Forall₂ Twin s.1.firebase.tasks s.1.firestore.tasks

namespace Both.Sound

variable {n m : Net κ υ ι} {notes notes' : Onboarded} {i : ℕ}

/-- Both runs start an operation. -/
theorem call (h : Sound (⟨n, m⟩, notes)) {op op' : Operation κ υ ι}
    (hOps : ∀ session, TwinStep (op.start session) (op'.start session)) :
    Sound (⟨n.call op, m.call op'⟩, notes) where
  session := h.session
  stores := h.stores
  tasks := by
    have hSession : m.backend.currentUser = n.backend.currentUser := h.session
    have hTwin := Twin.ofStep (hOps n.backend.currentUser)
    refine forall₂_concat h.tasks ?_
    rw [hSession]
    exact hTwin

/-- Corresponding calls have been answered. -/
theorem answered (h : Sound (⟨n, m⟩, notes)) {b b' : Backend} {call call' : Call κ υ ι}
    {step step' : Step κ υ ι} (hSession : b'.currentUser = b.currentUser)
    (hStores : ∀ uid, Kept notes' uid (b.database uid) (b'.users uid))
    (hStep : TwinStep step step') :
    Sound (⟨⟨b, n.tasks.set i (.answered call step)⟩,
      ⟨b', m.tasks.set i (.answered call' step')⟩⟩, notes') :=
  ⟨hSession, hStores, forall₂_set h.tasks (.answered _ _ _ _ hStep) i⟩

/-- Both write to the stores, for the account `uid`. -/
theorem stores_update (h : Sound (⟨n, m⟩, notes)) (uid : Uid) {node : Option Node}
    {doc : Option Document} (hKept : Kept notes' uid node doc)
    (hMarked : ∀ u ≠ uid, (u ∈ notes'.marked ↔ u ∈ notes.marked))
    (hProfiled : ∀ u ≠ uid, (u ∈ notes'.profiled ↔ u ∈ notes.profiled)) (u : Uid) :
    Kept notes' u (Function.update n.backend.database uid node u)
      (Function.update m.backend.users uid doc u) := by
  by_cases hUid : u = uid
  · subst hUid
    rw [Function.update_self, Function.update_self]
    exact hKept
  · rw [Function.update_of_ne hUid, Function.update_of_ne hUid]
    exact (h.stores u).congr (hMarked u hUid) (hProfiled u hUid)

theorem perform (h : Sound (⟨n, m⟩, notes)) {n' m' : Net κ υ ι} {outcome : Outcome}
    (hInside : ¬ FailsOutside ⟨n, m⟩ (.perform i outcome : Event κ υ))
    (hFirebase : n.perform i outcome = some n')
    (hFirestore : m.perform i (answer m i outcome) = some m') :
    Sound (⟨n', m'⟩, Onboarded.observe ⟨n, m⟩ (.perform i outcome) notes) := by
  obtain ⟨call, step, hTask, hAnswered, hTasks⟩ := Net.perform_eq_some hFirebase
  obtain ⟨call', step', hTask', hAnswered', hTasks'⟩ := Net.perform_eq_some hFirestore
  have hNet : n' = ⟨n'.backend, n.tasks.set i (.answered call step)⟩ := by rw [← hTasks]
  have hNet' : m' = ⟨m'.backend, m.tasks.set i (.answered call' step')⟩ := by rw [← hTasks']
  rw [hNet, hNet']
  generalize n'.backend = b at hAnswered
  generalize m'.backend = b' at hAnswered'
  obtain ⟨task, hTwinTask, hTwin⟩ := forall₂_getElem? h.tasks hTask
  obtain rfl : task = .waiting call' := Option.some.inj (hTwinTask.symm.trans hTask')
  have hSession : m.backend.currentUser = n.backend.currentUser := h.session
  cases hTwin with
  | waiting _ _ hCalls =>
    cases hCalls with
    | auth request callback callback' hCallbacks =>
      have hAnswer : answer m i outcome = outcome := by rw [answer, hTask']
      rw [hAnswer] at hAnswered'
      cases hAnswered with
      | authFailed _ _ error =>
        cases hAnswered'
        exact h.answered hSession h.stores (hCallbacks.failed error)
      | authenticated _ _ user _ hAuth =>
        cases hAnswered' with
        | authenticated _ _ _ _ hAuth' =>
          have hEffect := Backend.authenticate_some hAuth
          have hEffect' := Backend.authenticate_some hAuth'
          refine h.answered (hEffect'.1.trans hEffect.1.symm) (fun uid => ?_)
            (hCallbacks.granted user)
          rw [hEffect.2.2.2, hEffect'.2.1]
          exact h.stores uid
    | profile uid email fullname url completion =>
      have hAnswer : answer m i outcome = outcome := by rw [answer, hTask']
      rw [hAnswer] at hAnswered'
      cases hAnswered with
      | childrenFailed _ _ _ error =>
        cases hAnswered'
        exact h.answered hSession h.stores (.stop _ _ rfl rfl)
      | childrenUpdated _ _ _ =>
        cases hAnswered'
        have hNotes : Onboarded.observe ⟨n, m⟩ (.perform i .success : Event κ υ) notes =
            { notes with profiled := uid :: notes.profiled } := by
          simp only [Onboarded.observe, hTask]
        rw [hNotes]
        refine h.answered hSession ?_ (.stop _ _ rfl rfl)
        refine h.stores_update uid (Kept.profile notes uid _ email fullname url) ?_ ?_
        · exact fun u _ => Iff.rfl
        · exact fun u hNe => by simp [hNe]
    | mark uid completion =>
      cases hAnswered with
      | valueFailed _ _ _ _ error =>
        refine absurd (fun task hMem => ?_) hInside
        rw [hTask, Option.mem_some_iff] at hMem
        exact hMem ▸ rfl
      | valueSet _ _ _ _ =>
        have hNotes : Onboarded.observe ⟨n, m⟩ (.perform i .success : Event κ υ) notes =
            { notes with marked := uid :: notes.marked } := by
          simp only [Onboarded.observe, hTask]
        rw [hNotes]
        have hKept := h.stores uid
        have hOther : ∀ u ≠ uid, (u ∈ uid :: notes.marked ↔ u ∈ notes.marked) :=
          fun u hNe => by simp [hNe]
        cases hDoc : m.backend.users uid with
        | none =>
          have hAnswer : answer m i .success = .failure notFound := by
            rw [answer, hTask']
            exact if_pos hDoc
          rw [hAnswer] at hAnswered'
          cases hAnswered'
          refine h.answered hSession (fun u => ?_) (.stop _ _ rfl rfl)
          have hSame : Function.update m.backend.users uid none = m.backend.users := by
            rw [← hDoc, Function.update_eq_self]
          rw [hDoc] at hKept
          rw [← hSame]
          exact h.stores_update uid hKept.mark hOther (fun u _ => Iff.rfl) u
        | some doc =>
          have hAnswer : answer m i .success = .success := by
            rw [answer, hTask']
            exact if_neg (by simp [hDoc])
          rw [hAnswer] at hAnswered'
          cases hAnswered' with
          | updated _ _ _ doc' hDoc' =>
            obtain rfl : doc' = doc := Option.some.inj (hDoc'.symm.trans hDoc)
            refine h.answered hSession ?_ (.stop _ _ rfl rfl)
            rw [hDoc] at hKept
            exact h.stores_update uid hKept.update hOther fun u _ => Iff.rfl
    | fetch uid comletion =>
      have hAnswer : answer m i outcome = outcome := by rw [answer, hTask']
      rw [hAnswer] at hAnswered'
      cases hAnswered with
      | observeFailed _ _ error =>
        refine absurd (fun task hMem => ?_) hInside
        rw [hTask, Option.mem_some_iff] at hMem
        exact hMem ▸ rfl
      | observed _ _ =>
        cases hAnswered'
        have hNotes : Onboarded.observe ⟨n, m⟩ (.perform i .success : Event κ υ) notes = notes := by
          simp only [Onboarded.observe, hTask]
        rw [hNotes]
        refine h.answered hSession h.stores (.stop _ _ ?_ ?_)
        · unfold EventCallback.run
          cases (n.backend.database uid).bind Node.dictionary <;> rfl
        · unfold DocumentCallback.run
          cases m.backend.users uid <;> rfl

theorem deliver (h : Sound (⟨n, m⟩, notes)) {n' m' : Net κ υ ι} {step step' : Step κ υ ι}
    (hFirebase : n.deliver i = some (n', step)) (hFirestore : m.deliver i = some (m', step')) :
    Sound (⟨n', m'⟩, notes) := by
  obtain ⟨call, hTask, hBackend, hTasks⟩ := Net.deliver_eq_some hFirebase
  obtain ⟨call', hTask', hBackend', hTasks'⟩ := Net.deliver_eq_some hFirestore
  obtain ⟨task, hTwinTask, hTwin⟩ := forall₂_getElem? h.tasks hTask
  obtain rfl : task = .answered call' step' := Option.some.inj (hTwinTask.symm.trans hTask')
  have hSteps : TwinStep step step' := by
    cases hTwin with
    | answered _ _ _ _ hSteps => exact hSteps
  constructor
  · show m'.backend.currentUser = n'.backend.currentUser
    rw [hBackend, hBackend']
    exact h.session
  · intro uid
    show Kept notes uid (n'.backend.database uid) (m'.backend.users uid)
    rw [hBackend, hBackend']
    exact h.stores uid
  · show List.Forall₂ Twin n'.tasks m'.tasks
    rw [hTasks, hTasks']
    exact forall₂_set h.tasks (.ofStep hSteps) i

theorem step {s t : Both κ υ ι × Onboarded} {e : Event κ υ} (h : Sound s)
    (hStep : observed Both.step Onboarded.observe s e = some t) : Sound t := by
  obtain ⟨⟨n, m⟩, notes⟩ := s
  obtain ⟨⟨n', m'⟩, notes'⟩ := t
  obtain ⟨hBoth, rfl⟩ := observed_eq_some hStep
  obtain ⟨hInside, hFirebase, hFirestore⟩ := Both.step_eq_some hBoth
  cases e with
  | register email password fullname url completion =>
    obtain rfl := Option.some.inj hFirebase
    obtain rfl := Option.some.inj hFirestore
    exact h.call fun _ => .wait _ _ (.auth _ _ _ (.register email fullname url completion))
  | logUserIn email password completion =>
    obtain rfl := Option.some.inj hFirebase
    obtain rfl := Option.some.inj hFirestore
    exact h.call fun _ => .wait _ _ (.auth _ _ _ (.logUserIn completion))
  | signOut =>
    obtain rfl := Option.some.inj hFirebase
    obtain rfl := Option.some.inj hFirestore
    exact ⟨rfl, h.stores, h.tasks⟩
  | updateUserHasSeenOnboarding completion =>
    obtain rfl := Option.some.inj hFirebase
    obtain rfl := Option.some.inj hFirestore
    refine h.call fun session => ?_
    cases session with
    | none => exact .stop _ _ rfl rfl
    | some uid => exact .wait _ _ (.mark uid completion)
  | fetchUser comletion =>
    obtain rfl := Option.some.inj hFirebase
    obtain rfl := Option.some.inj hFirestore
    refine h.call fun session => ?_
    cases session with
    | none => exact .stop _ _ rfl rfl
    | some uid => exact .wait _ _ (.fetch uid comletion)
  | perform i outcome => exact h.perform hInside hFirebase hFirestore
  | deliver i =>
    obtain ⟨⟨net, step⟩, hDeliver, rfl⟩ := Option.map_eq_some_iff.mp hFirebase
    obtain ⟨⟨net', step'⟩, hDeliver', rfl⟩ := Option.map_eq_some_iff.mp hFirestore
    exact h.deliver hDeliver hDeliver'

/-- The two answers of a fetch. -/
theorem fetchesAnswered {s : Both κ υ ι × Onboarded} {e : Event κ υ} (h : Sound s) :
    FetchesAnswered FetchAnswers s e := by
  obtain ⟨⟨n, m⟩, notes⟩ := s
  rintro ⟨n', m'⟩ hBoth i outcome rfl uid comletion hFetch
  obtain ⟨hInside, hFirebase, hFirestore⟩ := Both.step_eq_some hBoth
  obtain ⟨call, step, hTask, hAnswered, hTasks⟩ := Net.perform_eq_some hFirebase
  obtain ⟨call', step', hTask', hAnswered', hTasks'⟩ := Net.perform_eq_some hFirestore
  obtain ⟨task, hTwinTask, hTwin⟩ := forall₂_getElem? h.tasks hTask
  obtain rfl : task = .waiting call' := Option.some.inj (hTwinTask.symm.trans hTask')
  have hHere : n'.tasks[i]? = some (.answered call step) := by
    rw [hTasks, List.getElem?_set_self (List.getElem?_eq_some_iff.mp hTask).1]
  have hThere : m'.tasks[i]? = some (.answered call' step') := by
    rw [hTasks', List.getElem?_set_self (List.getElem?_eq_some_iff.mp hTask').1]
  refine ⟨call, call', step, step', hHere, hThere, ?_⟩
  obtain rfl : call = .observeSingleEvent uid (.fetchUser comletion) :=
    Task.waiting.inj (Option.some.inj (hTask.symm.trans hFetch))
  cases hTwin with
  | waiting _ _ hCalls =>
    cases hCalls with
    | fetch _ _ =>
      have hAnswer : answer m i outcome = outcome := by rw [answer, hTask']
      rw [hAnswer] at hAnswered'
      generalize n'.backend = b at hAnswered
      generalize m'.backend = b' at hAnswered'
      cases hAnswered with
      | observeFailed _ _ error =>
        refine absurd (fun task hMem => ?_) hInside
        rw [hTask, Option.mem_some_iff] at hMem
        exact hMem ▸ rfl
      | observed _ _ =>
        cases hAnswered'
        exact (h.stores uid).answers comletion

end Both.Sound

end AggroApp
