import AskUser.TalkerSteps

/-!
# The buffers of `CynaraTalker::run`

Cynara allocates a buffer for the data of each message, and `run` has to free it. `Buffers` is the
invariant: only the buffer in `data` is live, its story so far is one of those in `Held`, and the
story of any other is complete (`Spent`): it was freed once, after it was copied if its message was
accepted. No buffer is used or freed after that (`buffers`).
-/

namespace AskUser
open Agent CynaraTalker Objects

namespace CynaraTalker

/-- The stories of a buffer that was freed; only an exception keeps the buffer of a known message
from being copied. -/
inductive Spent (quiet : Prop) : List BufferAct → Prop
  | copied (type : CynaraMsgType) : Spent quiet [.obtained type, .copied, .freed]
  | dropped (type : CynaraMsgType) : (quiet → cynaraType2AgentType type = none) →
      Spent quiet [.obtained type, .freed]

/-- The stories of the buffer in `data`, by the statement that is next. -/
inductive Held (quiet : Prop) : Point → List BufferAct → Prop
  | obtained (type : CynaraMsgType) (id : RequestId) :
      Held quiet (.construct type id) [.obtained type]
  | copied (r : Request) (type : CynaraMsgType) : Held quiet (.handle r) [.obtained type, .copied]
  | handled (type : CynaraMsgType) : Held quiet .release [.obtained type, .copied]
  | dropped (type : CynaraMsgType) : (quiet → cynaraType2AgentType type = none) →
      Held quiet .release [.obtained type]
  | constructThrew (type : CynaraMsgType) : ¬ quiet → Held quiet .leave [.obtained type]
  | handleThrew (type : CynaraMsgType) : ¬ quiet → Held quiet .leave [.obtained type, .copied]

/-- The statements at which `data` is a buffer still to be freed, or null. -/
def Point.holds : Point → Bool
  | .construct _ _ | .handle _ | .release | .leave => true
  | _ => false

/-- The statements at which `data` is null. -/
def Point.idle : Point → Bool
  | .agentInitialize | .initFailed | .getRequest | .receiveFailed => true
  | _ => false

/-- The buffer in `data` is the only one that is live. -/
structure Buffers (quiet : Prop) (t : Thread) : Prop where
  live : ∀ {b bytes}, t.buffers.cell b = some bytes →
    t.data = some b ∧ Held quiet t.point (t.story b)
  held : t.point.holds → ∀ b, t.data = some b → (t.buffers.cell b).isSome
  idle : t.point.idle → t.data = none
  dead : ∀ b, t.buffers.cell b = none → t.story b = [] ∨ Spent quiet (t.story b)
  unborn : ∀ b, t.buffers.size ≤ b → t.story b = []
  intact : t.point ≠ .crashed

variable {quiet : Prop} {t t' : Thread} {bytes : PluginData}

theorem buffers_new : Buffers quiet Thread.new where
  live hcell := by simp [Thread.new] at hcell
  held hholds := by simp [Thread.new, Point.holds] at hholds
  idle _ := rfl
  dead _ _ := Or.inl rfl
  unborn _ _ := rfl
  intact := by simp [Thread.new]

theorem Held.spent {point : Point} {st : List BufferAct} (h : Held quiet point st)
    (hpoint : point = .release ∨ point = .leave) : Spent quiet (st ++ [.freed]) := by
  cases h with
  | obtained | copied => simp at hpoint
  | handled type | handleThrew type => exact .copied type
  | dropped type hunknown => exact .dropped type hunknown
  | constructThrew type hnot => exact .dropped type fun hquiet => absurd hquiet hnot

theorem Held.not_freed {point : Point} {st : List BufferAct} (h : Held quiet point st) :
    .freed ∉ st ∧ point.holds := by
  cases h <;> exact ⟨by simp, rfl⟩

namespace Buffers

theorem data_none (h : Buffers quiet t) (hdata : t.data = none) (b : BufferPtr) :
    t.buffers.cell b = none := by
  cases hcell : t.buffers.cell b with
  | none => rfl
  | some bytes => exact absurd (hdata.symm.trans (h.live hcell).1) (by simp)

/-- A statement that leaves the buffers alone. -/
theorem move (h : Buffers quiet t) {point : Point} (hpoint : t.point = point)
    (hheld : ∀ {st}, Held quiet point st → Held quiet t'.point st)
    (hholds : t'.point.holds → point.holds) (hidle : t'.point.idle → point.idle)
    (hne : t'.point ≠ .crashed) (hdata : t'.data = t.data) (hbuffers : t'.buffers = t.buffers)
    (hjournal : t'.journal = t.journal) : Buffers quiet t' := by
  subst hpoint
  have hstory : t'.story = t.story := by
    funext b
    rw [Thread.story, hjournal, Thread.story]
  refine ⟨fun hcell => ?_, fun hp b hb => ?_, fun hp => ?_, fun b hcell => ?_, fun b hb => ?_, hne⟩
  · rw [hbuffers] at hcell
    rw [hdata, hstory]
    exact ⟨(h.live hcell).1, hheld (h.live hcell).2⟩
  · rw [hbuffers]
    exact h.held (hholds hp) b (hdata ▸ hb)
  · rw [hdata]
    exact h.idle (hidle hp)
  · rw [hstory]
    exact h.dead b (hbuffers ▸ hcell)
  · rw [hstory]
    exact h.unborn b (hbuffers ▸ hb)

/-- While `data` is null there is no buffer to lose. -/
theorem move_null (h : Buffers quiet t) (hnull : t.data = none) (hdata : t'.data = none)
    (hbuffers : t'.buffers = t.buffers) (hjournal : t'.journal = t.journal)
    (hne : t'.point ≠ .crashed) : Buffers quiet t' := by
  have hstory : t'.story = t.story := by
    funext b
    rw [Thread.story, hjournal, Thread.story]
  refine ⟨fun {b bytes} hcell => ?_, fun _ b hb => ?_, fun _ => hdata, fun b hcell => ?_,
    fun b hb => ?_, hne⟩
  · rw [hbuffers, h.data_none hnull] at hcell
    exact absurd hcell (by simp)
  · exact absurd (hdata.symm.trans hb) (by simp)
  · rw [hstory]
    exact h.dead b (hbuffers ▸ hcell)
  · rw [hstory]
    exact h.unborn b (hbuffers ▸ hb)

/-- A statement that changes one buffer, where no other is live. -/
theorem touch (h : Buffers quiet t) (b : BufferPtr) (st : List BufferAct)
    (hothers : ∀ q ≠ b, t.buffers.cell q = none)
    (hstory : ∀ q, t'.story q = if q = b then st else t.story q)
    (hcell : ∀ q ≠ b, t'.buffers.cell q = none)
    (hsize : t.buffers.size ≤ t'.buffers.size ∧ b < t'.buffers.size)
    (hlive : (t'.buffers.cell b).isSome → t'.data = some b ∧ Held quiet t'.point st)
    (hdead : t'.buffers.cell b = none → Spent quiet st)
    (hholds : t'.point.holds → t'.data = some b ∧ (t'.buffers.cell b).isSome)
    (hidle : t'.point.idle → t'.data = none) (hne : t'.point ≠ .crashed) : Buffers quiet t' := by
  refine ⟨fun {q bytes} hq => ?_, fun hp q hq => ?_, hidle, fun q hq => ?_, fun q hq => ?_, hne⟩
  · obtain rfl : q = b := by
      by_contra hqb
      simp [hcell q hqb] at hq
    rw [hstory, if_pos rfl]
    exact hlive (by rw [hq]; rfl)
  · obtain ⟨hdata, hsome⟩ := hholds hp
    obtain rfl : q = b := Option.some.inj (hq.symm.trans hdata)
    exact hsome
  · rw [hstory]
    split_ifs with hqb
    · exact Or.inr (hdead (hqb ▸ hq))
    · exact h.dead q (hothers q hqb)
  · have hqb : q ≠ b := fun he => absurd hsize.2 (Nat.not_lt.2 (he ▸ hq))
    rw [hstory, if_neg hqb]
    exact h.unborn q (hsize.1.trans hq)

theorem obtain (h : Buffers quiet t) (m : Message) (hpoint : t.point = .getRequest) :
    Buffers quiet { t.obtain m with point := .construct m.type m.id } := by
  have hnone : t.data = none := h.idle (by rw [hpoint]; rfl)
  cases hm : m.data with
  | none =>
    have hobtain : t.obtain m = { t with data := none, received := t.received ++ [m] } := by
      rw [Thread.obtain, hm]
    rw [hobtain]
    exact h.move_null hnone rfl rfl rfl (by simp)
  | some bytes =>
    have hobtain : t.obtain m = { t with
        data := some t.buffers.size
        buffers := t.buffers.alloc bytes
        journal := t.journal.note t.buffers.size (.obtained m.type)
        received := t.received ++ [m] } := by
      rw [Thread.obtain, hm]
    have hnew := h.unborn t.buffers.size (Nat.le_refl _)
    rw [hobtain]
    refine h.touch t.buffers.size _ (fun q _ => h.data_none hnone q) (fun q => ?_)
      (fun q hq => ?_) ⟨by simp, by simp⟩ (fun _ => ⟨rfl, .obtained m.type m.id⟩) (by simp)
      (fun _ => ⟨rfl, by simp⟩) (by simp [Point.idle]) (by simp)
    · show (t.journal.note _ _).story q = _
      rw [Journal.story_note]
      split_ifs with hq
      · rw [hq]
        exact congrArg (· ++ _) hnew
      · rfl
    · simp [hq, h.data_none hnone q]

theorem others_none (h : Buffers quiet t) {b : BufferPtr} (hdata : t.data = some b) {q : BufferPtr}
    (hq : q ≠ b) : t.buffers.cell q = none := by
  cases hcell : t.buffers.cell q with
  | none => rfl
  | some bytes => exact absurd (Option.some.inj ((h.live hcell).1.symm.trans hdata)) hq

theorem copy (h : Buffers quiet t) {type : CynaraMsgType} {id : RequestId} (r : Request)
    (hpoint : t.point = .construct type id) (hcopy : t.copyData = some (bytes, t')) :
    Buffers quiet { t' with point := .handle r } := by
  obtain ⟨hdata, -, rfl⟩ | ⟨b, hdata, hcell, rfl⟩ := Thread.copyData_cases hcopy
  · exact h.move_null hdata hdata rfl rfl (by simp)
  · have hst := (h.live hcell).2
    rw [hpoint] at hst
    refine h.touch b (t.story b ++ [.copied]) (fun q hq => h.others_none hdata hq)
      (fun q => ?_) (fun q hq => h.others_none hdata hq) ⟨Nat.le_refl _, Heap.lt_size hcell⟩
      (fun _ => ⟨hdata, ?_⟩) (by simp [hcell]) (fun _ => ⟨hdata, by simp [hcell]⟩)
      (by simp [Point.idle]) (by simp)
    · show (t.journal.note _ _).story q = _
      rw [Journal.story_note]
      split_ifs with hq
      · rw [hq]
        rfl
      · rfl
    · generalize t.story b = st at hst
      cases hst
      exact .copied r type

theorem free (h : Buffers quiet t) {point : Point} (data : Option BufferPtr)
    (hpoint : t.point = .release ∨ t.point = .leave) (hfree : t.freeData = some t')
    (hholds : point.holds = false) (hdata : point.idle → data = none) (hne : point ≠ .crashed) :
    Buffers quiet { t' with point := point, data := data } := by
  obtain ⟨hnone, rfl⟩ | ⟨b, hb, hcell, rfl⟩ := Thread.freeData_cases hfree
  · refine ⟨fun {q bytes} hq => ?_, fun hp => ?_, hdata, fun q hq => h.dead q hq,
      fun q hq => h.unborn q hq, hne⟩
    · exact absurd (h.data_none hnone q) (by rw [show t'.buffers.cell q = some bytes from hq]; simp)
    · exact absurd hp (by simp [hholds])
  · obtain ⟨bytes, hcell⟩ := Option.isSome_iff_exists.1 hcell
    refine h.touch b (t.story b ++ [.freed]) (fun q hq => h.others_none hb hq)
      (fun q => ?_) (fun q hq => by simp [hq, h.others_none hb hq])
      ⟨Nat.le_refl _, by simpa using Heap.lt_size hcell⟩ (by simp)
      (fun _ => (h.live hcell).2.spent hpoint) (by simp [hholds]) hdata hne
    show (t.journal.note _ _).story q = _
    rw [Journal.story_note]
    split_ifs with hq
    · rw [hq]
      rfl
    · rfl

/-- `data` is not dangling where it is copied or freed. -/
theorem copyData_ne_none (h : Buffers quiet t) (hholds : t.point.holds) : t.copyData ≠ none := by
  unfold Thread.copyData
  split
  · simp
  · next b hdata => simpa [← Option.isSome_iff_ne_none] using h.held hholds b hdata

theorem freeData_ne_none (h : Buffers quiet t) (hholds : t.point.holds) : t.freeData ≠ none := by
  unfold Thread.freeData
  split
  · simp
  · next b hdata => simpa [← Option.isSome_iff_ne_none] using h.held hholds b hdata

end Buffers

end CynaraTalker

namespace System

variable {L : Limits} {s s' : System} {e : Event} {quiet : Prop}

/-- **A statement of the thread** keeps the invariant. -/
theorem ThreadStep.buffers (hs : ThreadStep s e s') (h : Buffers quiet s.thread)
    (hquiet : quiet → Quiet (.thread e) s) : Buffers quiet s'.thread := by
  cases hs with
  | initialized hpoint | initFailed hpoint =>
    exact h.move_null (h.idle (by rw [hpoint]; rfl)) (h.idle (by rw [hpoint]; rfl)) rfl rfl
      (by simp [goto])
  | closesEarly hpoint | closes hpoint | receiveFailed hpoint =>
    exact h.move_null (h.idle (by rw [hpoint]; rfl)) (h.idle (by rw [hpoint]; rfl)) rfl rfl
      (by simp [goto])
  | receives m hpoint => exact h.obtain m hpoint
  | dropped hpoint htype =>
    refine h.move hpoint (fun hheld => ?_) (fun _ => rfl) (by simp [Point.idle]) (by simp) rfl rfl
      rfl
    cases hheld
    exact .dropped _ fun _ => htype
  | constructed hpoint _ hcopy => exact h.copy _ hpoint hcopy
  | constructThrows x hpoint =>
    refine h.move hpoint (fun hheld => ?_) (fun _ => rfl) (by simp [Point.idle, goto])
      (by simp [goto]) rfl rfl rfl
    cases hheld
    exact .constructThrew _ fun hq => hquiet hq
  | handled hpoint =>
    refine h.move hpoint (fun hheld => ?_) (fun _ => rfl) (by simp [Point.idle]) (by simp) rfl rfl
      rfl
    cases hheld
    exact .handled _
  | handleThrows x hpoint =>
    refine h.move hpoint (fun hheld => ?_) (fun _ => rfl) (by simp [Point.idle, goto])
      (by simp [goto]) rfl rfl rfl
    cases hheld
    exact .handleThrew _ fun hq => hquiet hq
  | released hpoint hfree => exact h.free none (Or.inl hpoint) hfree rfl (fun _ => rfl) (by simp)
  | @left t hpoint hfree =>
    exact h.free t.data (Or.inr hpoint) hfree rfl (by simp [Point.idle]) (by simp)
  | finished hpoint | announced hpoint =>
    refine h.move hpoint (fun hheld => ?_) (by simp [Point.holds, goto])
      (by simp [Point.idle, goto]) (by simp [goto]) rfl rfl rfl
    cases hheld
  | copyCrashes hpoint hcopy =>
    exact absurd hcopy (h.copyData_ne_none (by rw [hpoint]; rfl))
  | freeCrashes hpoint hfree =>
    refine absurd hfree (h.freeData_ne_none ?_)
    rcases hpoint with hpoint | hpoint <;> rw [hpoint] <;> rfl

/-- **The buffers**, in every run; what is said of accepted messages needs a quiet one. -/
theorem buffers {cond : Label → System → Prop} (hcond : quiet → ∀ l s, cond l s → Quiet l s)
    (h : Reachable L cond s) : Buffers quiet s.thread := by
  refine h.invariant (P := fun s => Buffers quiet s.thread) buffers_new fun l s s' ih hl hs => ?_
  cases l with
  | agent l =>
    obtain ⟨-, a, -, rfl⟩ := step_agent hs
    exact ih
  | thread e => exact (step_thread hs).2.buffers ih fun hq => hcond hq _ _ hl

end System

end AskUser
