import AskUser.AgentInvariant
import AskUser.Lib.Frame

/-!
# What the main thread writes down

The journals of the requests and of the dialogs only grow. The calls of the main thread never write
that a request was handed in (`mainStep_written`), `finish` writes nothing about requests but that
they are deleted (`written_shutdown`), and a dialog is started for an Action only
(`noStart_mainStep`). All of this is read off the text of the functions, whatever state they are
called in.
-/

namespace AskUser.Agent
open RequestType Objects Fallible

variable {F : Frame Agent} {p : RequestPtr} {u : UIPtr} {id : RequestId}

/-! ### Calls that touch the dialogs alone -/

/-- A frame that has nothing to say about the dialogs. -/
def IgnoresDialogs (F : Frame Agent) : Prop := ∀ s d, F.rel s { s with dialogs := d }

/-- What `dismiss` and `erase` do to a dialog is within the frame. -/
structure AllowsDismissal (F : Frame Agent) : Prop where
  put : ∀ s u ui, F.rel s { s with dialogs := s.dialogs.put u ui }
  joined : ∀ s u, F.rel s { s with dialogs := s.dialogs.note u .joined }
  erase : ∀ s id, F.rel s { s with dialogs := s.dialogs.erase id }
  free : ∀ s u, F.rel s { s with dialogs := s.dialogs.free u }

theorem IgnoresDialogs.allowsDismissal (hF : IgnoresDialogs F) : AllowsDismissal F :=
  ⟨fun _ _ _ => hF _ _, fun _ _ => hF _ _, fun _ _ => hF _ _, fun _ _ => hF _ _⟩

theorem keeps_request : Keeps F (request p) := by
  intro s
  unfold request
  split
  · exact F.refl s
  · exact F.refl s

theorem keeps_dialog : Keeps F (dialog u) := by
  intro s
  unfold dialog
  split
  · exact F.refl s
  · exact F.refl s

section Dismissal

variable (hF : AllowsDismissal F)
include hF

theorem keeps_destroy : Keeps F (destroy u) := by
  intro s
  unfold destroy
  split
  · exact F.refl s
  · split
    · exact hF.free s u
    · exact hF.free s u

theorem keeps_dismiss : Keeps F (dismiss u) := by
  unfold dismiss
  refine keeps_dialog.bind fun ui => ?_
  split
  · exact keeps_throw _
  · refine Keeps.bind (fun s => hF.put s u _) fun _ => ?_
    exact .ite (Keeps.bind (fun s => hF.joined s u) fun _ => keeps_pure _) (keeps_pure _)

theorem keeps_eraseUI : Keeps F (eraseUI id u) := by
  unfold eraseUI
  exact Keeps.bind (fun s => hF.erase s id) fun _ => keeps_destroy hF

theorem keeps_dismissUI : Keeps F (dismissUI id) := by
  unfold dismissUI
  refine keeps_get_bind fun s => ?_
  split
  · exact keeps_pure _
  · exact (keeps_dismiss hF).bind fun _ => .ite (keeps_eraseUI hF) (keeps_pure _)

theorem keeps_cleanupLoop (es : List (Sigma fun _ : RequestId => UIPtr)) (ret : Bool) :
    Keeps F (cleanupLoop es ret) := by
  induction es generalizing ret with
  | nil => exact keeps_pure _
  | cons e es ih =>
    unfold cleanupLoop
    refine keeps_dialog.bind fun ui => ?_
    have hrest (gone : Bool) : Keeps F
        (if gone then do eraseUI e.1 e.2; cleanupLoop es ret else cleanupLoop es false) :=
      .ite ((keeps_eraseUI hF).bind fun _ => ih ret) (ih false)
    exact .ite ((keeps_dismiss hF).bind hrest) ((keeps_pure false).bind hrest)

theorem keeps_cleanupUIThreads : Keeps F cleanupUIThreads := by
  unfold cleanupUIThreads
  exact keeps_get_bind fun s => keeps_cleanupLoop hF _ _

end Dismissal

theorem keeps_startUIForRequest (hF : IgnoresDialogs F) {L : Limits} {c : Choice} :
    Keeps F (startUIForRequest L c p) := by
  have hdialogs (f : Dialogs → Dialogs) : Keeps F (onDialogs f) := fun s => hF s _
  have hdestroy {u : UIPtr} : Keeps F (destroy u) := keeps_destroy hF.allowsDismissal
  unfold startUIForRequest
  refine keeps_request.bind fun r => ?_
  split
  · exact keeps_throw _
  · refine keeps_get_bind fun s => (hdialogs _).bind fun _ => keeps_dialog.bind fun ui => ?_
    split
    · exact hdestroy.bind fun _ => keeps_pure _
    · refine (hdialogs _).bind fun _ => keeps_get_bind fun s => ?_
      split
      · exact (hdialogs _).bind fun _ => keeps_pure _
      · exact hdestroy.bind fun _ => keeps_pure _

/-- A scope that keeps a frame in one state, with the deletion that follows it. -/
theorem withUniquePtr_rel (hdelete : Keeps F (delete p))
    (hthrown : ∀ s e, F.rel s { s with store := s.store.note p (.thrown e) })
    {scope : AgentM Bool} {s : Agent} (h : F.rel s (last (scope s))) :
    F.rel s (last (withUniquePtr p scope s)) := by
  unfold withUniquePtr
  cases hrun : scope s with
  | ok b s₁ =>
    rw [hrun] at h
    cases b with
    | true => exact h
    | false => exact F.trans h (hdelete s₁)
  | error a s₁ =>
    rw [hrun] at h
    cases a with
    | exception e =>
      have hnote : F.rel s { s₁ with store := s₁.store.note p (.thrown e) } :=
        F.trans h (hthrown s₁ e)
      have hlast := hdelete { s₁ with store := s₁.store.note p (.thrown e) }
      simp only [onRequests]
      cases hd : delete p { s₁ with store := s₁.store.note p (.thrown e) } with
      | ok _ s₂ =>
        rw [hd] at hlast
        exact F.trans hnote hlast
      | error _ s₂ =>
        rw [hd] at hlast
        exact F.trans hnote hlast
    | terminate | useAfterFree | doubleFree => exact h

/-- What `finish` does is within the frame. -/
structure AllowsShutdown (F : Frame Agent) : Prop extends AllowsDismissal F where
  talker : ∀ s t n, F.rel s { s with talker := t, talkerJoins := n }
  pop : ∀ s rest, F.rel s { s with store := { s.store with incomingRequests := rest } }
  eraseRequest : ∀ s id, F.rel s { s with store := s.store.erase id }
  delete : ∀ s p, F.rel s { s with store := s.store.free p }

section Shutdown

variable (hF : AllowsShutdown F)
include hF

theorem keeps_delete_of : Keeps F (delete p) := by
  intro s
  unfold delete
  split
  · exact F.refl s
  · exact hF.delete s p

theorem keeps_stopTalker : Keeps F stopTalker := by
  intro s
  unfold stopTalker
  split
  · exact hF.talker s _ _
  · exact F.refl s
  · exact F.refl s

theorem keeps_drainRequests (ps : List RequestPtr) : Keeps F (drainRequests ps) := by
  induction ps with
  | nil => exact keeps_pure _
  | cons p ps ih =>
    unfold drainRequests
    exact Keeps.bind (fun s => hF.pop s ps) fun _ => (keeps_delete_of hF).bind fun _ => ih

theorem keeps_deleteRequests (es : List (Sigma fun _ : RequestId => RequestPtr)) :
    Keeps F (deleteRequests es) := by
  induction es with
  | nil => exact keeps_pure _
  | cons e es ih =>
    unfold deleteRequests
    exact (keeps_delete_of hF).bind fun _ =>
      Keeps.bind (fun s => hF.eraseRequest s e.1) fun _ => ih

theorem keeps_finish : Keeps F (noexcept finish) := by
  have hfinish : Keeps F finish := by
    unfold finish
    refine (keeps_stopTalker hF).bind fun stopped => .ite (keeps_pure _) ?_
    refine keeps_get_bind fun s => (keeps_drainRequests hF _).bind fun _ => ?_
    refine (keeps_cleanupUIThreads hF.toAllowsDismissal).bind fun clean => .ite (keeps_pure _) ?_
    exact keeps_get_bind fun s => (keeps_deleteRequests hF _).bind fun _ => keeps_pure _
  intro s
  have := hfinish s
  unfold noexcept
  cases hrun : finish s with
  | ok b s₁ => rwa [hrun] at this
  | error a s₁ =>
    rw [hrun] at this
    cases a <;> exact this

end Shutdown

/-- What follows a call changes nothing but the place of the main thread and the exception. -/
theorem resume_rel (hF : ∀ s pc e, F.rel s { s with pc := pc, exception := e }) {s : Agent}
    {res : EStateM.Result Abort Agent Pc} (h : F.rel s (last res)) : F.rel s (resume res) := by
  cases res with
  | ok pc s₁ => exact F.trans h (hF s₁ pc s₁.exception)
  | error a s₁ =>
    cases a with
    | exception e => exact F.trans h (hF s₁ .stopped (some e))
    | terminate | useAfterFree | doubleFree => exact F.trans h (hF s₁ _ s₁.exception)

/-! ### The journal of the requests -/

/-- Only events of some kinds are added to the journal of the requests. -/
def written (allowed : RequestAct → Prop) : Frame Agent :=
  .appends (fun s => s.store.journal.entries) fun e => allowed e.2

/-- Any event but the arrival of a request. -/
def NotHanded (a : RequestAct) : Prop := a.handedRequest = none

/-- Nothing but a deletion. -/
def IsDeletion (a : RequestAct) : Prop := a = .deleted

theorem not_handed {a : RequestAct} (h : a.handedRequest = none) : NotHanded a := h

variable {allowed : RequestAct → Prop}

/-- A change that leaves the journal of the requests alone. -/
theorem written_same {s s' : Agent} (h : s'.store.journal = s.store.journal) :
    (written allowed).rel s s' :=
  ⟨[], by simp only [h, List.append_nil], fun _ ht => absurd ht List.not_mem_nil⟩

/-- One event is written. -/
theorem written_note {s s' : Agent} {a : RequestAct} (ha : allowed a)
    (h : s'.store.journal = s.store.journal.note p a) : (written allowed).rel s s' :=
  ⟨[(p, a)], by simp only [h, Journal.note], fun _ ht => (List.mem_singleton.1 ht) ▸ ha⟩

theorem written_dialogs : IgnoresDialogs (written allowed) := fun _ _ => written_same rfl

/-- **`finish`** writes nothing but deletions. -/
theorem written_shutdown (h : allowed .deleted) : AllowsShutdown (written allowed) where
  toAllowsDismissal := written_dialogs.allowsDismissal
  talker _ _ _ := written_same rfl
  pop _ _ := written_same rfl
  eraseRequest _ _ := written_same rfl
  delete _ _ := written_note h rfl

theorem keeps_delete (h : allowed .deleted) : Keeps (written allowed) (delete p) :=
  keeps_delete_of (written_shutdown h)

theorem keeps_note {a : RequestAct} (h : allowed a) :
    Keeps (written allowed) (onRequests fun b => b.note p a) :=
  fun _ => written_note h rfl

theorem keeps_sendResponse {type : RequestType} {id : RequestId} {data : PluginData}
    {cause : Cause} (h : allowed (.sent ⟨type, id, data, cause⟩)) :
    Keeps (written allowed) (sendResponse p type id data cause) :=
  keeps_note h

theorem keeps_withUniquePtr {scope : AgentM Bool} (h : Keeps (written allowed) scope)
    (hdeleted : allowed .deleted) (hthrown : ∀ e, allowed (.thrown e)) :
    Keeps (written allowed) (withUniquePtr p scope) := fun s =>
  withUniquePtr_rel (keeps_delete hdeleted) (fun s e => keeps_note (hthrown e) s) (h s)

theorem keeps_processCynaraRequest {L : Limits} {c : Choice} :
    Keeps (written NotHanded) (processCynaraRequest L c p) := by
  unfold processCynaraRequest
  refine keeps_withUniquePtr ?_ (not_handed rfl) fun _ => not_handed rfl
  refine keeps_request.bind fun r => keeps_get_bind fun s => ?_
  split
  · refine .ite ?_ ((keeps_note (not_handed rfl)).bind fun _ => keeps_pure _)
    refine (keeps_delete (not_handed rfl)).bind fun _ => ?_
    refine Keeps.bind (fun _ => written_same rfl) fun _ => keeps_request.bind fun r => ?_
    refine (keeps_sendResponse (not_handed rfl)).bind fun _ => ?_
    exact (keeps_dismissUI written_dialogs.allowsDismissal).bind fun _ => keeps_pure _
  · refine .ite (keeps_pure _) ?_
    refine (keeps_startUIForRequest written_dialogs).bind fun started => .ite ?_ ?_
    · refine Keeps.bind (fun s => ?_) fun _ => keeps_pure _
      show (written NotHanded).rel s { s with store := s.store.insert r.id p }
      unfold Requests.insert
      split
      · exact written_same rfl
      · exact written_note (not_handed rfl) rfl
    · refine (keeps_note (not_handed rfl)).bind fun _ => ?_
      exact (keeps_sendResponse (not_handed rfl)).bind fun _ => keeps_pure _

theorem keeps_processUIResponse {q : Response} :
    Keeps (written NotHanded) (processUIResponse q) := by
  unfold processUIResponse
  refine keeps_get_bind fun s => ?_
  split
  · exact (keeps_pure _).bind fun _ => keeps_dismissUI written_dialogs.allowsDismissal
  · refine keeps_request.bind fun r => (keeps_sendResponse (not_handed rfl)).bind fun _ => ?_
    refine (keeps_delete (not_handed rfl)).bind fun _ => ?_
    refine Keeps.bind (fun _ => written_same rfl) fun _ => ?_
    exact keeps_dismissUI written_dialogs.allowsDismissal

/-! ### The main thread -/

/-- **No call of the main thread** writes that a request was handed in. -/
theorem keeps_call {L : Limits} {c : Choice} (pc : Pc) :
    Keeps (written NotHanded) (call L c pc) := by
  cases pc with
  | start => exact Keeps.bind (fun _ => written_same rfl) fun _ => keeps_pure _
  | outer | waiting =>
    exact keeps_get_bind fun s => keeps_pure _
  | inner =>
    refine keeps_get_bind fun s => ?_
    split
    · exact Keeps.bind (fun _ => written_note (not_handed rfl) rfl) fun _ => keeps_pure _
    · exact keeps_get_bind fun s => keeps_pure _
  | request p =>
    refine keeps_request.bind fun r => .ite ?_ ?_
    · refine (keeps_delete (not_handed rfl)).bind fun _ => ?_
      exact Keeps.bind (fun _ => written_same rfl) fun _ => keeps_pure _
    · exact keeps_processCynaraRequest.bind fun _ => keeps_pure _
  | responses =>
    refine keeps_get_bind fun s => ?_
    split
    · exact Keeps.bind (fun _ => written_same rfl) fun _ => keeps_pure _
    · exact keeps_pure _
  | response q => exact keeps_processUIResponse.bind fun _ => keeps_pure _
  | cleanup =>
    exact (keeps_cleanupUIThreads written_dialogs.allowsDismissal).bind fun _ => keeps_pure _
  | stopped => exact (keeps_finish (written_shutdown (not_handed rfl))).bind fun _ => keeps_pure _
  | finished | exited | crashed => exact keeps_pure _

theorem mainStep_written (L : Limits) (c : Choice) (s : Agent) :
    (written NotHanded).rel s (mainStep L c s) :=
  resume_rel (fun _ _ _ => written_same rfl) (keeps_call s.pc s)

/-- The last step of the main thread writes nothing but deletions. -/
theorem mainStep_last (L : Limits) (c : Choice) {s : Agent} (hpc : s.pc = .stopped) :
    (written IsDeletion).rel s (mainStep L c s) := by
  refine resume_rel (fun _ _ _ => written_same rfl) ?_
  rw [hpc]
  exact ((keeps_finish (written_shutdown (show IsDeletion .deleted from rfl))).bind fun _ =>
    keeps_pure _) s

/-- What a story gains is allowed. -/
theorem story_of_written {s s' : Agent} (h : (written allowed).rel s s') (p : RequestPtr) :
    ∃ new, s'.store.story p = s.store.story p ++ new ∧ ∀ a ∈ new, allowed a := by
  obtain ⟨new, hentries, hnew⟩ := h
  refine ⟨(new.filter fun e => e.1 = p).map Prod.snd, ?_, fun a ha => ?_⟩
  · simp only [Requests.story, Journal.story, hentries, List.filter_append, List.map_append]
  · obtain ⟨e, he, rfl⟩ := List.mem_map.1 ha
    exact hnew e (List.mem_filter.1 he).1

/-- What is written stays. -/
theorem mainStep_story {L : Limits} {c : Choice} {s : Agent} {a : RequestAct}
    (ha : a ∈ s.store.story p) : a ∈ (mainStep L c s).store.story p := by
  obtain ⟨new, hstory, -⟩ := story_of_written (mainStep_written L c s) p
  rw [hstory]
  exact List.mem_append_left _ ha

/-- A clash leaves the requests as they were. -/
theorem MainStep.store_of_crash {L : Limits} {c : Choice} {s s' : Agent} (hs : MainStep L c s s')
    (hcrash : s'.pc = .crashed .terminate) : s'.store = s.store := by
  cases hs with
  | clashed => rfl
  | moves hm =>
    generalize s.pc = pc₀ at hm
    cases hm <;> simp at hcrash
  | start | popped | closed | cancelled | duplicate | unknownCancel | thrown | startFailed
  | recorded | poppedResponse | answered | unmatched | cleaned | exited | finished =>
    simp at hcrash

/-- So the requests that a crash leaves are those of the state before it. -/
theorem step_store_of_crash {L : Limits} {l : Label} {s s' : Agent} (h : Inv s)
    (hs : step L l s = some s') (hcrash : s'.pc = .crashed .terminate) :
    s'.store = s.store := by
  obtain ⟨hrun, ⟨c, -, hmain⟩ | ⟨-, hother⟩⟩ := step_cases h hs
  · exact hmain.store_of_crash hcrash
  · have hpc : s'.pc = s.pc := by cases hother <;> rfl
    rw [← hpc, hcrash] at hrun
    simp [Pc.isFinal] at hrun

/-! ### The journal of the dialogs -/

/-- Any event but the start of a dialog's thread. -/
def NotStarted (a : DialogAct) : Prop := ∀ i p, a ≠ .started i p

/-- No start of a dialog's thread is written. -/
def noStart : Frame Agent := .appends (fun s => s.dialogs.journal.entries) fun e => NotStarted e.2

theorem noStart_same {s s' : Agent} (h : s'.dialogs.journal = s.dialogs.journal) :
    noStart.rel s s' :=
  ⟨[], by simp only [h, List.append_nil], fun _ ht => absurd ht List.not_mem_nil⟩

theorem noStart_note {s s' : Agent} {a : DialogAct} (ha : NotStarted a)
    (h : s'.dialogs.journal = s.dialogs.journal.note u a) : noStart.rel s s' :=
  ⟨[(u, a)], by simp only [h, Journal.note], fun _ ht => (List.mem_singleton.1 ht) ▸ ha⟩

theorem noStart_dismissal : AllowsDismissal noStart where
  put _ _ _ := noStart_same rfl
  joined _ _ := noStart_note (fun _ _ => by simp) rfl
  erase _ _ := noStart_same rfl
  free _ _ := noStart_note (fun _ _ => by simp) rfl

theorem noStart_onRequests (f : Requests → Requests) : Keeps noStart (onRequests f) :=
  fun _ => noStart_same rfl

theorem noStart_shutdown : AllowsShutdown noStart where
  toAllowsDismissal := noStart_dismissal
  talker _ _ _ := noStart_same rfl
  pop _ _ := noStart_same rfl
  eraseRequest _ _ := noStart_same rfl
  delete _ _ := noStart_same rfl

theorem noStart_processUIResponse {q : Response} : Keeps noStart (processUIResponse q) := by
  unfold processUIResponse
  refine keeps_get_bind fun s => ?_
  split
  · exact (keeps_pure _).bind fun _ => keeps_dismissUI noStart_dismissal
  · refine keeps_request.bind fun r => (noStart_onRequests _).bind fun _ => ?_
    refine (keeps_delete_of noStart_shutdown).bind fun _ => (noStart_onRequests _).bind fun _ => ?_
    exact keeps_dismissUI noStart_dismissal

/-- A Cancel starts no dialog. -/
theorem noStart_cancel {L : Limits} {c : Choice} {s : Agent} {r : Request}
    (hp : s.store.objects.cell p = some r) (hcancel : r.type = RT_Cancel) :
    noStart.rel s (last (processCynaraRequest L c p s)) := by
  refine withUniquePtr_rel (keeps_delete_of noStart_shutdown) (fun _ _ => noStart_same rfl) ?_
  rw [bind_ok (request_run hp), get_bind]
  cases hl : s.store.requests.lookup r.id with
  | none =>
    simp only [if_pos hcancel]
    exact noStart.refl s
  | some existing =>
    simp only [if_pos hcancel]
    refine ((keeps_delete_of noStart_shutdown).bind fun _ => ?_) s
    refine (noStart_onRequests _).bind fun _ => keeps_request.bind fun r => ?_
    refine (noStart_onRequests _).bind fun _ => ?_
    exact (keeps_dismissUI noStart_dismissal).bind fun _ => keeps_pure _

/-- **A step of the main thread** starts no dialog, unless it processes an Action. -/
theorem noStart_mainStep {L : Limits} {c : Choice} {s : Agent} (hpc : ∀ p r, s.pc = .request p →
    s.store.objects.cell p = some r → r.type ≠ RT_Action) :
    noStart.rel s (mainStep L c s) := by
  refine resume_rel (fun _ _ _ => noStart_same rfl) ?_
  cases hs : s.pc with
  | start => exact noStart_same rfl
  | finished | exited | crashed => exact noStart.refl s
  | outer | waiting => exact (keeps_get_bind fun s => keeps_pure _) s
  | inner =>
    refine (keeps_get_bind fun s => ?_) s
    split
    · exact Keeps.bind (fun _ => noStart_same rfl) fun _ => keeps_pure _
    · exact keeps_get_bind fun s => keeps_pure _
  | responses =>
    refine (keeps_get_bind fun s => ?_) s
    split
    · exact Keeps.bind (fun _ => noStart_same rfl) fun _ => keeps_pure _
    · exact keeps_pure _
  | response q => exact (noStart_processUIResponse.bind fun _ => keeps_pure _) s
  | cleanup =>
    exact ((keeps_cleanupUIThreads noStart_dismissal).bind fun _ => keeps_pure _) s
  | stopped => exact ((keeps_finish noStart_shutdown).bind fun _ => keeps_pure _) s
  | request p =>
    simp only [call]
    cases hp : s.store.objects.cell p with
    | none =>
      have hrun : request p s = .error .useAfterFree s := by simp [request, hp]
      rw [bind_error hrun]
      exact noStart.refl s
    | some r =>
      rw [bind_ok (request_run hp)]
      cases hr : r.type with
      | RT_Action => exact absurd hr (hpc p r hs hp)
      | RT_Cancel =>
        rw [if_neg (by simp)]
        exact bind_rel (noStart_cancel hp hr) fun _ => keeps_pure _
      | RT_Close =>
        rw [if_pos rfl]
        exact ((keeps_delete_of noStart_shutdown).bind fun _ =>
          Keeps.bind (fun _ => noStart_same rfl) fun _ => keeps_pure _) s

/-- No start is added to the story of a dialog. -/
theorem started_of_noStart {s s' : Agent} (h : noStart.rel s s') {i : RequestId}
    (hst : .started i p ∈ s'.dialogs.story u) : .started i p ∈ s.dialogs.story u := by
  obtain ⟨new, hentries, hnew⟩ := h
  simp only [Dialogs.story, Journal.story, hentries, List.filter_append, List.map_append,
    List.mem_append] at hst
  refine hst.resolve_right fun hmem => ?_
  obtain ⟨e, he, heq⟩ := List.mem_map.1 hmem
  exact hnew e (List.mem_filter.1 he).1 i p heq

end AskUser.Agent
