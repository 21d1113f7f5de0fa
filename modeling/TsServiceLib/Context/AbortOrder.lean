import TsServiceLib.Context.SignalLinks

/-!
Who aborts a signal first. Each abort by an owner or a timer sends out a wave,
and whatever the wave aborts takes over its reason. As long as owners abort
nothing while a wave is on its way, the waves come one after the other, and a
signal is in the first wave that reaches one of its sources.
-/
namespace AbortSignals
open Numbers

section Marks
variable {E : Type} {u v w : World E} {child signal : Nat} {reason : Reason E} {wave : Nat}

structure Still (v w : World E) : Prop where
  origin : ∀ k, (w.signal k).origin = (v.signal k).origin
  born : ∀ k, (w.signal k).born = (v.signal k).born
  reason : ∀ k, (w.signal k).reason = (v.signal k).reason
  wave : ∀ k, (w.signal k).wave = (v.signal k).wave

structure Marks (v w : World E) (child : Nat) (reason : Reason E) (wave : Nat) : Prop where
  origin : ∀ k, (w.signal k).origin = (v.signal k).origin
  born : ∀ k, (w.signal k).born = (v.signal k).born
  reason : ∀ k, (w.signal k).reason = if k = child then some reason else (v.signal k).reason
  wave : ∀ k, (w.signal k).wave = if k = child then wave else (v.signal k).wave

theorem still_refl (w : World E) : Still w w := ⟨fun _ => rfl, fun _ => rfl, fun _ => rfl, fun _ => rfl⟩

theorem still_stack (w : World E) (stack : List Frame) : Still w { w with stack } :=
  ⟨fun _ => rfl, fun _ => rfl, fun _ => rfl, fun _ => rfl⟩

theorem still_trans (first : Still u v) (second : Still v w) : Still u w where
  origin k := (second.origin k).trans (first.origin k)
  born k := (second.born k).trans (first.born k)
  reason k := (second.reason k).trans (first.reason k)
  wave k := (second.wave k).trans (first.wave k)

theorem still_update (w : World E) (k : Nat) (change : Signal E → Signal E)
    (same : ∀ s, (change s).origin = s.origin ∧ (change s).born = s.born ∧ (change s).reason = s.reason ∧
      (change s).wave = s.wave) : Still w (w.update k change) := by
  have at' : ∀ n, ((w.update k change).signal n).origin = (w.signal n).origin ∧
      ((w.update k change).signal n).born = (w.signal n).born ∧
      ((w.update k change).signal n).reason = (w.signal n).reason ∧
      ((w.update k change).signal n).wave = (w.signal n).wave := by
    intro n
    rw [update_signal]
    split
    · rename_i here
      rw [here]
      exact same _
    · exact ⟨rfl, rfl, rfl, rfl⟩
  exact ⟨fun n => (at' n).1, fun n => (at' n).2.1, fun n => (at' n).2.2.1, fun n => (at' n).2.2.2⟩

theorem still_addListener (w : World E) (signal child : Nat) : Still w (addListener w signal child) :=
  still_update w signal _ fun _ => ⟨rfl, rfl, rfl, rfl⟩

theorem still_removeListener (w : World E) (signal child : Nat) : Still w (removeListener w signal child) :=
  still_update w signal _ fun _ => ⟨rfl, rfl, rfl, rfl⟩

theorem still_clearTimer (w : World E) (child : Nat) : Still w (clearTimer w child) :=
  still_update w child _ fun _ => ⟨rfl, rfl, rfl, rfl⟩

theorem still_removeListeners (w : World E) (signals : List Nat) (child : Nat) :
    Still w (removeListeners w signals child) := by
  induction signals generalizing w with
  | nil => exact still_refl w
  | cons signal rest ih => exact still_trans (still_removeListener w signal child) (ih _)

theorem still_aborted (still : Still v w) (k : Nat) : w.aborted k = v.aborted k := by
  simp only [World.aborted, still.reason]

theorem marks_after (first : Still u v) (second : Marks v w child reason wave) : Marks u w child reason wave where
  origin k := (second.origin k).trans (first.origin k)
  born k := (second.born k).trans (first.born k)
  reason k := by rw [second.reason, first.reason]
  wave k := by rw [second.wave, first.wave]

theorem marks_before (first : Marks u v child reason wave) (second : Still v w) : Marks u w child reason wave where
  origin k := (second.origin k).trans (first.origin k)
  born k := (second.born k).trans (first.born k)
  reason k := (second.reason k).trans (first.reason k)
  wave k := (second.wave k).trans (first.wave k)

theorem marks_aborted (marks : Marks v w child reason wave) {k : Nat} :
    w.aborted k = true ↔ k = child ∨ v.aborted k = true := by
  simp only [World.aborted, marks.reason]
  split
  · rename_i here
    simp [here]
  · rename_i other
    simp [other]

theorem abortWith_marks (w : World E) (child : Nat) (reason : Reason E) (wave : Nat) :
    Marks w (abortWith w child reason wave) child reason wave := by
  have changed := fun k => abortWith_signal w child k reason wave
  constructor
  · intro k
    rw [changed]
    split
    · rename_i here
      rw [here]
    · rfl
  · intro k
    rw [changed]
    split
    · rename_i here
      rw [here]
    · rfl
  · intro k
    rw [changed]
    split <;> rfl
  · intro k
    rw [changed]
    split <;> rfl

theorem abortLike_marks (found : (w.signal signal).reason = some reason) (live : w.aborted child = false) :
    Marks w (abortLike w child signal) child reason (w.signal signal).wave := by
  simp only [abortLike, found, live, Bool.false_eq_true, if_false]
  exact abortWith_marks w child reason _

/-- An event of the signal is in progress. -/
def Dispatching (w : World E) (signal : Nat) : Prop := ∃ remaining, Frame.dispatch signal remaining ∈ w.stack

theorem abortWith_dispatching {s : Nat} (busy : Dispatching (abortWith w child reason wave) s) :
    Dispatching w s ∨ s = child := by
  obtain ⟨remaining, frame⟩ := busy
  rw [abortWith_stack] at frame
  split at frame
  · exact .inl ⟨remaining, frame⟩
  · rcases List.mem_cons.mp frame with here | before
    · cases here
      exact .inr rfl
    · exact .inl ⟨remaining, before⟩

theorem abortLike_dispatching {s : Nat} (busy : Dispatching (abortLike w child signal) s) :
    Dispatching w s ∨ s = child := by
  unfold abortLike at busy
  split at busy
  · split at busy
    · exact .inl busy
    · exact abortWith_dispatching busy
  · exact .inl busy

theorem abortLike_still (before : w.aborted child = true) : abortLike w child signal = w := by
  unfold abortLike
  split
  · rw [if_pos before]
  · rfl

/-- The call of a listener aborts the signal, unless it has been aborted already. -/
theorem notify_marks (child : Nat) (found : (w.signal signal).reason = some reason) :
    (∀ s, Dispatching (notify w child signal) s → Dispatching w s ∨ (s = child ∧ w.aborted child = false)) ∧
      ((w.aborted child = true ∧ Still w (notify w child signal)) ∨
        (w.aborted child = false ∧ Marks w (notify w child signal) child reason (w.signal signal).wave)) := by
  have removed := still_trans (still_clearTimer w child) (still_removeListener (clearTimer w child) signal child)
  have pushed : Still w { w with stack := .cleanup child :: w.stack } := still_stack w _
  have under : ∀ s, Dispatching { w with stack := .cleanup child :: w.stack } s → Dispatching w s := by
    rintro s ⟨remaining, frame⟩
    rcases List.mem_cons.mp frame with here | before
    · cases here
    · exact ⟨remaining, before⟩
  cases before : w.aborted child with
  | true =>
    have before' : (removeListener (clearTimer w child) signal child).aborted child = true := by simpa using before
    unfold notify abortFromParent abortCombined
    split
    · rw [abortLike_still before']
      exact ⟨fun s busy => .inl busy, .inl ⟨rfl, removed⟩⟩
    · rw [abortLike_still (w := { w with stack := .cleanup child :: w.stack }) before]
      exact ⟨fun s busy => .inl (under s busy), .inl ⟨rfl, pushed⟩⟩
  | false =>
    have live : (removeListener (clearTimer w child) signal child).aborted child = false := by simpa using before
    have same : ((removeListener (clearTimer w child) signal child).signal signal).wave = (w.signal signal).wave :=
      removed.wave signal
    unfold notify abortFromParent abortCombined
    split
    · have marks := abortLike_marks ((removed.reason signal).trans found) live
      rw [same] at marks
      refine ⟨?_, .inr ⟨rfl, marks_after removed marks⟩⟩
      intro s busy
      rcases abortLike_dispatching busy with old | here
      · exact .inl old
      · exact .inr ⟨here, rfl⟩
    · have marks := abortLike_marks (w := { w with stack := .cleanup child :: w.stack }) found before
      refine ⟨?_, .inr ⟨rfl, marks_after pushed marks⟩⟩
      intro s busy
      rcases abortLike_dispatching busy with old | here
      · exact .inl (under s old)
      · exact .inr ⟨here, rfl⟩

theorem advance_marks (woven : Woven v none) (next : advance v = some w) :
    w.waves = v.waves ∧
      ((Still v w ∧ ∀ s, Dispatching w s → Dispatching v s) ∨
        ∃ signal child reason, Dispatching v signal ∧ signal ∈ v.sources child ∧ v.aborted child = false ∧
          (v.signal signal).reason = some reason ∧ Marks v w child reason (v.signal signal).wave ∧
          ∀ s, Dispatching w s → Dispatching v s ∨ s = child) := by
  refine ⟨(advance_spread next).waves, ?_⟩
  unfold advance at next
  split at next
  · cases next
  · rename_i signal below stack
    cases next
    refine .inl ⟨still_stack v _, ?_⟩
    rintro s ⟨remaining, frame⟩
    exact ⟨remaining, by rw [stack]; exact List.mem_cons_of_mem _ frame⟩
  · rename_i signal child rest below stack
    have top : Frame.dispatch signal (child :: rest) ∈ v.stack := by rw [stack]; exact List.mem_cons_self
    have under : ∀ s, Dispatching { v with stack := .dispatch signal rest :: below } s → Dispatching v s := by
      rintro s ⟨remaining, frame⟩
      rcases List.mem_cons.mp frame with here | before
      · cases here
        exact ⟨_, top⟩
      · exact ⟨remaining, by rw [stack]; exact List.mem_cons_of_mem _ before⟩
    obtain ⟨aborted, children⟩ := woven.dispatching signal (child :: rest) top
    obtain ⟨reason, found⟩ := Option.isSome_iff_exists.mp aborted
    dsimp only at next
    split at next
    · cases next
      have removed := still_removeListener { v with stack := .dispatch signal rest :: below } signal child
      have kept : Still v (removeListener { v with stack := .dispatch signal rest :: below } signal child) :=
        still_trans (still_stack v _) removed
      obtain ⟨frames, ⟨ended, still⟩ | ⟨live, marks⟩⟩ := notify_marks child ((kept.reason signal).trans found)
      · refine .inl ⟨still_trans kept still, ?_⟩
        intro s busy
        rcases frames s busy with old | ⟨-, live⟩
        · exact under s old
        · rw [ended] at live
          cases live
      · rw [kept.wave signal] at marks
        rw [still_aborted kept] at live
        refine .inr ⟨signal, child, reason, ⟨_, top⟩, children child List.mem_cons_self, live, found,
          marks_after kept marks, ?_⟩
        intro s busy
        rcases frames s busy with old | ⟨here, -⟩
        · exact .inl (under s old)
        · exact .inr here
    · cases next
      exact .inl ⟨still_stack v _, under⟩
  · rename_i child below stack
    cases next
    have dropped : Still v { v with stack := below } := still_stack v _
    refine .inl ⟨still_trans dropped (still_removeListeners _ _ _), ?_⟩
    have same : ∀ (signals : List Nat) (u : World E), (removeListeners u signals child).stack = u.stack := by
      intro signals
      induction signals with
      | nil => exact fun _ => rfl
      | cons signal rest ih => exact fun u => (ih _).trans rfl
    rintro s ⟨remaining, frame⟩
    rw [same] at frame
    exact ⟨remaining, by rw [stack]; exact List.mem_cons_of_mem _ frame⟩

end Marks

section Order
variable {E : Type} {v w : World E} {child : Nat}

/-- The sources that count for the order: where one was found aborted when the
    signal was made, those after it do not. -/
def heard (w : World E) (k : Nat) : List Nat :=
  match (w.signal k).born with
  | none => w.sources k
  | some found => (w.sources k).takeWhile (· ≠ found) ++ [found]

structure Ordered (w : World E) : Prop where
  below : ∀ k, w.aborted k = true → (w.signal k).wave < w.waves
  same : ∀ j k, w.aborted j = true → w.aborted k = true → (w.signal j).wave = (w.signal k).wave →
    (w.signal j).reason = (w.signal k).reason
  unborn : ∀ k, w.aborted k = false → (w.signal k).born = none
  found : ∀ k s, (w.signal k).born = some s → s ∈ w.sources k
  first : ∀ k s, w.aborted k = true → s ∈ heard w k → w.aborted s = true → (w.signal k).wave ≤ (w.signal s).wave
  cause : ∀ k, w.aborted k = true → (w.signal k).origin ≠ .root → (w.signal k).reason = some (.exceeded k) ∨
    ∃ s ∈ heard w k, w.aborted s = true ∧ (w.signal s).reason = (w.signal k).reason ∧
      (w.signal s).wave = (w.signal k).wave
  current : ∀ s, Dispatching w s → (w.signal s).wave + 1 = w.waves

theorem heard_sources (ordered : Ordered w) {k s : Nat} (member : s ∈ heard w k) : s ∈ w.sources k := by
  unfold heard at member
  split at member
  · exact member
  · rename_i found born
    rcases List.mem_append.mp member with before | here
    · exact (List.takeWhile_prefix _).subset before
    · rw [List.mem_singleton] at here
      rw [here]
      exact ordered.found k found born

theorem heard_same (origin : (w.signal child).origin = (v.signal child).origin)
    (born : (w.signal child).born = (v.signal child).born) : heard w child = heard v child := by
  simp only [heard, World.sources, born, origin]

theorem still_ordered (ordered : Ordered v) (still : Still v w) (waves : w.waves = v.waves)
    (frames : ∀ s, Dispatching w s → Dispatching v s) : Ordered w := by
  have aborted := still_aborted still
  have hears := fun k => heard_same (still.origin k) (still.born k)
  have sources : ∀ k, w.sources k = v.sources k := fun k => congrArg Origin.sources (still.origin k)
  constructor
  · intro k ended
    rw [aborted] at ended
    rw [still.wave, waves]
    exact ordered.below k ended
  · intro j k ended ended'
    rw [aborted] at ended ended'
    rw [still.wave, still.wave, still.reason, still.reason]
    exact ordered.same j k ended ended'
  · intro k live
    rw [aborted] at live
    rw [still.born]
    exact ordered.unborn k live
  · intro k s born
    rw [still.born] at born
    rw [sources]
    exact ordered.found k s born
  · intro k s ended member ended'
    rw [aborted] at ended ended'
    rw [hears] at member
    rw [still.wave, still.wave]
    exact ordered.first k s ended member ended'
  · intro k ended made
    rw [aborted] at ended
    rw [still.origin] at made
    rw [still.reason, hears, still.wave]
    rcases ordered.cause k ended made with own | ⟨s, member, ended', reason, wave⟩
    · exact .inl own
    · exact .inr ⟨s, member, by rw [aborted, ended'], by rw [still.reason, reason], by rw [still.wave, wave]⟩
  · intro s busy
    rw [still.wave, waves]
    exact ordered.current s (frames s busy)

theorem marks_ordered (ordered : Ordered v) (woven : Woven v none) {reason : Reason E} {wave : Nat}
    (marks : Marks v w child reason wave) (live : v.aborted child = false) (latest : wave + 1 = w.waves)
    (later : v.waves ≤ w.waves) (sources : ∀ s ∈ v.sources child, v.aborted s = true → (v.signal s).wave = wave)
    (agreed : ∀ k, v.aborted k = true → (v.signal k).wave = wave → (v.signal k).reason = some reason)
    (because : reason = .exceeded child ∨ (v.signal child).origin = .root ∨
      ∃ s ∈ v.sources child, v.aborted s = true ∧ (v.signal s).reason = some reason)
    (frames : ∀ s, Dispatching w s → (Dispatching v s ∧ v.waves = w.waves) ∨ s = child) : Ordered w := by
  have hears := fun k => heard_same (marks.origin k) (marks.born k)
  have sources' : ∀ k, w.sources k = v.sources k := fun k => congrArg Origin.sources (marks.origin k)
  have other : ∀ {k}, v.aborted k = true → k ≠ child := by
    intro k ended here
    rw [here, live] at ended
    cases ended
  have old : ∀ {k}, v.aborted k = true → (w.signal k).reason = (v.signal k).reason ∧
      (w.signal k).wave = (v.signal k).wave := by
    intro k ended
    rw [marks.reason, marks.wave, if_neg (other ended), if_neg (other ended)]
    exact ⟨rfl, rfl⟩
  have new : (w.signal child).reason = some reason ∧ (w.signal child).wave = wave := by
    rw [marks.reason, marks.wave, if_pos rfl, if_pos rfl]
    exact ⟨rfl, rfl⟩
  have unheard : heard v child = v.sources child := by
    simp only [heard, ordered.unborn child live]
  constructor
  · intro k ended
    rcases (marks_aborted marks).mp ended with rfl | before
    · rw [new.2]
      omega
    · rw [(old before).2]
      exact Nat.lt_of_lt_of_le (ordered.below k before) later
  · intro j k ended ended' equal
    rcases (marks_aborted marks).mp ended with rfl | before
    · rcases (marks_aborted marks).mp ended' with rfl | before'
      · rfl
      · rw [new.2, (old before').2] at equal
        rw [new.1, (old before').1, agreed k before' equal.symm]
    · rcases (marks_aborted marks).mp ended' with rfl | before'
      · rw [new.2, (old before).2] at equal
        rw [new.1, (old before).1, agreed j before equal]
      · rw [(old before).2, (old before').2] at equal
        rw [(old before).1, (old before').1]
        exact ordered.same j k before before' equal
  · intro k open'
    rw [marks.born]
    apply ordered.unborn
    by_contra ended
    have after := (marks_aborted marks).mpr (.inr ((Bool.not_eq_false _).mp ended))
    rw [open'] at after
    cases after
  · intro k s born
    rw [marks.born] at born
    rw [sources']
    exact ordered.found k s born
  · intro k s ended member ended'
    rw [hears] at member
    rcases (marks_aborted marks).mp ended with rfl | before
    · rcases (marks_aborted marks).mp ended' with rfl | before'
      · exact Nat.le_refl _
      · rw [unheard] at member
        rw [new.2, (old before').2, sources s member before']
    · rcases (marks_aborted marks).mp ended' with rfl | before'
      · have earlier := ordered.below k before
        rw [new.2, (old before).2]
        omega
      · rw [(old before).2, (old before').2]
        exact ordered.first k s before member before'
  · intro k ended made
    rw [marks.origin] at made
    rw [hears]
    rcases (marks_aborted marks).mp ended with rfl | before
    · rw [new.1, new.2]
      rcases because with own | root | ⟨s, member, before', carried⟩
      · exact .inl (by rw [own])
      · exact absurd root made
      · refine .inr ⟨s, by rwa [unheard], (marks_aborted marks).mpr (.inr before'), ?_, ?_⟩
        · rw [(old before').1, carried]
        · rw [(old before').2, sources s member before']
    · rw [(old before).1, (old before).2]
      rcases ordered.cause k before made with own | ⟨s, member, before', carried, wave'⟩
      · exact .inl own
      · exact .inr ⟨s, member, (marks_aborted marks).mpr (.inr before'), by rw [(old before').1, carried],
          by rw [(old before').2, wave']⟩
  · intro s busy
    rcases frames s busy with ⟨before, equal⟩ | rfl
    · obtain ⟨remaining, frame⟩ := before
      have ended := (woven.dispatching s remaining frame).1
      rw [(old ended).2, ← equal]
      exact ordered.current s ⟨remaining, frame⟩
    · rw [new.2, latest]

theorem advance_ordered (ordered : Ordered v) (woven : Woven v none) (next : advance v = some w) : Ordered w := by
  obtain ⟨waves, ⟨still, frames⟩ | ⟨signal, child, reason, busy, source, live, found, marks, frames⟩⟩ :=
    advance_marks woven next
  · exact still_ordered ordered still waves frames
  · have here := ordered.current signal busy
    have ended : v.aborted signal = true := Option.isSome_iff_exists.mpr ⟨reason, found⟩
    apply marks_ordered ordered woven marks live (by omega) (Nat.le_of_eq waves.symm)
    · intro s member ended'
      rcases (woven.linked child s (by intro same; cases same) live member).2 with open' | ⟨remaining, frame, -⟩
      · rw [ended'] at open'
        cases open'
      · have there := ordered.current s ⟨remaining, frame⟩
        omega
    · intro k ended' equal
      rw [ordered.same k signal ended' ended equal, found]
    · exact .inr (.inr ⟨signal, source, ended, found⟩)
    · intro s busy'
      rcases frames s busy' with before | child'
      · exact .inl ⟨before, waves.symm⟩
      · exact .inr child'

theorem abortFirst_stack (reason : Reason E) (live : w.aborted child = false) :
    Marks w (abortFirst w child reason) child reason w.waves ∧ (abortFirst w child reason).waves = w.waves + 1 ∧
      ∀ s, Dispatching (abortFirst w child reason) s → Dispatching w s ∨ s = child := by
  simp only [abortFirst, live, Bool.false_eq_true, if_false]
  refine ⟨?_, ?_, ?_⟩
  · have counted : Still w { w with waves := w.waves + 1 } := ⟨fun _ => rfl, fun _ => rfl, fun _ => rfl, fun _ => rfl⟩
    exact marks_after counted (abortWith_marks { w with waves := w.waves + 1 } child reason w.waves)
  · unfold abortWith
    dsimp only
    split <;> rfl
  · intro s busy
    exact abortWith_dispatching (w := { w with waves := w.waves + 1 }) busy

/-- With no event in progress, an abort by an owner or a timer begins a wave. -/
theorem abortFirst_ordered (ordered : Ordered v) (woven : Woven v none) (quiet : v.stack = []) (still : Still v w)
    (stack : w.stack = v.stack) (waves : w.waves = v.waves) {reason : Reason E}
    (because : reason = .exceeded child ∨ (v.signal child).origin = .root) : Ordered (abortFirst w child reason) := by
  cases before : w.aborted child with
  | true =>
    simp only [abortFirst, before, if_true]
    apply still_ordered ordered still waves
    rintro s ⟨remaining, frame⟩
    exact ⟨remaining, by rwa [← stack]⟩
  | false =>
    obtain ⟨marks, next, frames⟩ := abortFirst_stack reason before
    rw [waves] at marks next
    have live : v.aborted child = false := by rw [← still_aborted still, before]
    apply marks_ordered ordered woven (marks_after still marks) live next.symm (by omega)
    · intro s source ended
      have after := woven_quiet woven quiet source ended
      rw [live] at after
      cases after
    · intro k ended equal
      have earlier := ordered.below k ended
      omega
    · rcases because with own | root
      · exact .inl own
      · exact .inr (.inl root)
    · intro s busy
      rcases frames s busy with ⟨remaining, frame⟩ | here
      · rw [stack, quiet] at frame
        cases frame
      · exact .inr here

/-- A new signal is as yet not aborted, or was made like the first aborted one of its sources. -/
structure Made (v w : World E) : Prop where
  origin : ∀ k, k ≠ v.count → (w.signal k).origin = (v.signal k).origin
  born : ∀ k, k ≠ v.count → (w.signal k).born = (v.signal k).born
  reason : ∀ k, k ≠ v.count → (w.signal k).reason = (v.signal k).reason
  wave : ∀ k, k ≠ v.count → (w.signal k).wave = (v.signal k).wave
  waves : w.waves = v.waves
  frames : ∀ s, Dispatching w s → Dispatching v s
  early : ∀ s ∈ w.sources v.count, s < v.count
  new : (w.aborted v.count = false ∧ (w.signal v.count).born = none) ∨
    ∃ found, (w.signal v.count).born = some found ∧ found ∈ w.sources v.count ∧ v.aborted found = true ∧
      (w.signal v.count).reason = (v.signal found).reason ∧ (w.signal v.count).wave = (v.signal found).wave ∧
      ∀ s ∈ (w.sources v.count).takeWhile (· ≠ found), v.aborted s = false

theorem made_ordered (ordered : Ordered v) (woven : Woven v none) (made : Made v w) : Ordered w := by
  have aborted : ∀ {k}, k ≠ v.count → w.aborted k = v.aborted k := by
    intro k other
    simp only [World.aborted, made.reason k other]
  have old : ∀ {k}, v.aborted k = true → k ≠ v.count := fun ended => Nat.ne_of_lt (woven_aborted_made woven ended)
  have hears : ∀ {k}, k ≠ v.count → heard w k = heard v k := fun other => heard_same (made.origin _ other) (made.born _ other)
  have sources : ∀ {k}, k ≠ v.count → w.sources k = v.sources k := fun other => congrArg Origin.sources (made.origin _ other)
  have source : ∀ {k s}, k ≠ v.count → s ∈ heard w k → s ≠ v.count := by
    intro k s other member
    rw [hears other] at member
    have link := heard_sources ordered member
    exact Nat.ne_of_lt (Nat.lt_trans (woven.older k s link) (woven_made woven link))
  -- an aborted signal has the wave and the reason of one that was aborted before
  have like : ∀ {k}, w.aborted k = true → ∃ k', v.aborted k' = true ∧ (w.signal k).reason = (v.signal k').reason ∧
      (w.signal k).wave = (v.signal k').wave := by
    intro k ended
    by_cases here : k = v.count
    · subst here
      rcases made.new with ⟨live, -⟩ | ⟨found, -, -, before, reason, wave, -⟩
      · rw [ended] at live
        cases live
      · exact ⟨found, before, reason, wave⟩
    · exact ⟨k, by rw [← aborted here, ended], made.reason k here, made.wave k here⟩
  constructor
  · intro k ended
    obtain ⟨k', before, -, wave⟩ := like ended
    rw [wave, made.waves]
    exact ordered.below k' before
  · intro j k ended ended' equal
    obtain ⟨j', before, reason, wave⟩ := like ended
    obtain ⟨k', before', reason', wave'⟩ := like ended'
    rw [reason, reason']
    apply ordered.same j' k' before before'
    rw [← wave, ← wave', equal]
  · intro k live
    by_cases here : k = v.count
    · subst here
      rcases made.new with ⟨-, unborn⟩ | ⟨found, -, -, before, reason, -⟩
      · exact unborn
      · simp only [World.aborted, reason] at live before
        rw [live] at before
        cases before
    · rw [made.born k here]
      apply ordered.unborn
      rw [← aborted here, live]
  · intro k s born
    by_cases here : k = v.count
    · subst here
      rcases made.new with ⟨-, unborn⟩ | ⟨found, born', member, -⟩
      · rw [unborn] at born
        cases born
      · rw [born'] at born
        cases born
        exact member
    · rw [sources here]
      rw [made.born k here] at born
      exact ordered.found k s born
  · intro k s ended member ended'
    by_cases here : k = v.count
    · subst here
      rcases made.new with ⟨live, -⟩ | ⟨found, born, link, before, -, wave, silent⟩
      · rw [ended] at live
        cases live
      · simp only [heard, born] at member
        rcases List.mem_append.mp member with earlier | last
        · have known := made.early s ((List.takeWhile_prefix _).subset earlier)
          rw [aborted (Nat.ne_of_lt known), silent s earlier] at ended'
          cases ended'
        · rw [List.mem_singleton] at last
          rw [last, wave, made.wave found (old before)]
    · have other := source here member
      rw [hears here] at member
      rw [made.wave k here, made.wave s other]
      exact ordered.first k s (by rw [← aborted here, ended]) member (by rw [← aborted other, ended'])
  · intro k ended notRoot
    by_cases here : k = v.count
    · subst here
      rcases made.new with ⟨live, -⟩ | ⟨found, born, link, before, reason, wave, -⟩
      · rw [ended] at live
        cases live
      · refine .inr ⟨found, ?_, by rw [aborted (old before), before], ?_, ?_⟩
        · simp only [heard, born]
          exact List.mem_append_right _ (List.mem_singleton_self _)
        · rw [made.reason found (old before), reason]
        · rw [made.wave found (old before), wave]
    · rw [made.origin k here] at notRoot
      rw [made.reason k here, made.wave k here]
      rcases ordered.cause k (by rw [← aborted here, ended]) notRoot with own | ⟨s, member, before, reason, wave⟩
      · exact .inl own
      · have other := old before
        exact .inr ⟨s, by rwa [hears here], by rw [aborted other, before], by rw [made.reason s other, reason],
          by rw [made.wave s other, wave]⟩
  · intro s busy
    have before := made.frames s busy
    obtain ⟨remaining, frame⟩ := before
    rw [made.wave s (old (woven.dispatching s remaining frame).1), made.waves]
    exact ordered.current s ⟨remaining, frame⟩

theorem made_still {signal : Signal E} (live : signal.reason = none) (unborn : signal.born = none)
    (early : ∀ s ∈ signal.origin.sources, s < v.count) (still : Still (create v signal) w) (waves : w.waves = v.waves)
    (frames : ∀ s, Dispatching w s → Dispatching v s) : Made v w := by
  have sources : w.sources v.count = signal.origin.sources := by
    rw [World.sources, still.origin, create_signal, if_pos rfl]
  refine ⟨?_, ?_, ?_, ?_, waves, frames, ?_, .inl ⟨?_, ?_⟩⟩
  · intro k other
    rw [still.origin, create_signal, if_neg other]
  · intro k other
    rw [still.born, create_signal, if_neg other]
  · intro k other
    rw [still.reason, create_signal, if_neg other]
  · intro k other
    rw [still.wave, create_signal, if_neg other]
  · rwa [sources]
  · rw [still_aborted still, aborted_create, if_pos rfl, live]
    rfl
  · rw [still.born, create_signal, if_pos rfl, unborn]

theorem made_marks (signal : Signal E) (found : Nat) {reason : Reason E} (born : signal.born = some found)
    (link : found ∈ signal.origin.sources) (carried : (v.signal found).reason = some reason)
    (silent : ∀ s ∈ signal.origin.sources.takeWhile (· ≠ found), v.aborted s = false)
    (early : ∀ s ∈ signal.origin.sources, s < v.count)
    (marks : Marks (create v signal) w v.count reason (v.signal found).wave) (waves : w.waves = v.waves)
    (frames : ∀ s, Dispatching w s → Dispatching v s) : Made v w := by
  have sources : w.sources v.count = signal.origin.sources := by
    rw [World.sources, marks.origin, create_signal, if_pos rfl]
  refine ⟨?_, ?_, ?_, ?_, waves, frames, ?_, .inr ⟨found, ?_, ?_, ?_, ?_, ?_, ?_⟩⟩
  · intro k other
    rw [marks.origin, create_signal, if_neg other]
  · intro k other
    rw [marks.born, create_signal, if_neg other]
  · intro k other
    rw [marks.reason, if_neg other, create_signal, if_neg other]
  · intro k other
    rw [marks.wave, if_neg other, create_signal, if_neg other]
  · rwa [sources]
  · rw [marks.born, create_signal, if_pos rfl, born]
  · rwa [sources]
  · exact Option.isSome_iff_exists.mpr ⟨reason, carried⟩
  · rw [marks.reason, if_pos rfl, carried]
  · rw [marks.wave, if_pos rfl]
  · rwa [sources]

theorem abortLike_unheard {signal : Nat} (alone : (w.signal child).listeners = []) :
    (abortLike w child signal).stack = w.stack := by
  unfold abortLike
  split
  · split
    · rfl
    · rw [abortWith_stack, if_pos alone]
  · rfl

theorem made_composeSignal {signal : Nat} (known : signal < w.count) (deadline : Number) :
    Made w (composeSignal w signal (some deadline)).2 := by
  have other : signal ≠ w.count := Nat.ne_of_lt known
  have early : ∀ s ∈ (composition w signal deadline).origin.sources, s < w.count := by
    intro s source
    have here : s = signal := List.mem_singleton.mp source
    rw [here]
    exact known
  have waves := (composeSignal_made w signal deadline).2.waves
  have listening := still_addListener (create w (composition w signal deadline)) signal w.count
  rw [composeSignal_eq] at waves ⊢
  dsimp only at waves ⊢
  cases ended : w.aborted signal with
  | false =>
    simp only [ended, Bool.false_eq_true, if_false] at waves ⊢
    refine made_still rfl ?_ early listening waves fun s busy => busy
    simp only [composition, ended, Bool.false_eq_true, if_false]
  | true =>
    simp only [ended, if_true] at waves ⊢
    obtain ⟨reason, found⟩ := Option.isSome_iff_exists.mp ended
    have cleared := still_clearTimer (addListener (create w (composition w signal deadline)) signal w.count) w.count
    have kept := still_trans listening (still_trans cleared (still_removeListener _ signal w.count))
    have same : (create w (composition w signal deadline)).signal signal = w.signal signal := by
      rw [create_signal, if_neg other]
    have live : (create w (composition w signal deadline)).aborted w.count = false := by
      rw [aborted_create, if_pos rfl]
      rfl
    have aborts := abortLike_marks (((kept.reason signal).trans (congrArg Signal.reason same)).trans found)
      ((still_aborted kept w.count).trans live)
    rw [kept.wave, same] at aborts
    apply made_marks (composition w signal deadline) signal _ _ found _ early (marks_after kept aborts) waves
    · rintro s ⟨remaining, frame⟩
      refine ⟨remaining, ?_⟩
      rw [abortLike_unheard] at frame
      · exact frame
      · rw [listeners_removeListener, if_neg other.symm, listeners_clearTimer, listeners_addListener, if_neg other.symm,
          listeners_create, if_pos rfl]
        rfl
    · simp only [composition, ended, if_true]
    · exact List.mem_singleton_self signal
    · intro s member
      simp [composition, Origin.sources] at member

theorem combineLoop_marks {signals : List Nat} (listened : List Nat) (live : w.aborted child = false)
    (alone : (w.signal child).listeners = []) (apart : child ∉ signals) (silent : ∀ s ∈ listened, w.aborted s = false) :
    (combineLoop child w signals listened).stack = w.stack ∧
      match signals.find? w.aborted with
      | none => Still w (combineLoop child w signals listened)
      | some found => ∃ reason, (w.signal found).reason = some reason ∧
          Marks w (combineLoop child w signals listened) child reason (w.signal found).wave := by
  induction signals generalizing w listened with
  | nil => exact ⟨rfl, still_refl w⟩
  | cons signal rest ih =>
    have apart' : child ∉ rest := fun member => apart (List.mem_cons_of_mem _ member)
    have other : child ≠ signal := fun here => apart (by rw [here]; exact List.mem_cons_self)
    simp only [combineLoop]
    split
    · rename_i before
      rw [List.find?_cons_of_neg (by simp [silent signal before])]
      exact ih listened live alone apart' silent
    · split
      · rename_i ended
        obtain ⟨reason, found⟩ := Option.isSome_iff_exists.mp ended
        have stack : ∀ (signals : List Nat) (u : World E), (removeListeners u signals child).stack = u.stack := by
          intro signals
          induction signals with
          | nil => exact fun _ => rfl
          | cons first rest ih => exact fun u => (ih _).trans rfl
        rw [List.find?_cons_of_pos ended, stack, abortLike_unheard alone]
        exact ⟨rfl, reason, found, marks_before (abortLike_marks found live) (still_removeListeners _ _ _)⟩
      · rename_i open'
        have listening := still_addListener w signal child
        have aborted : (addListener w signal child).aborted = w.aborted := by
          funext k
          exact still_aborted listening k
        have later := ih (w := addListener w signal child) (listened ++ [signal]) (by rw [aborted, live])
          (by rw [listeners_addListener, if_neg other, alone]) apart' (by
            intro s member
            rw [aborted]
            rcases List.mem_append.mp member with before | here
            · exact silent s before
            · rw [List.mem_singleton] at here
              rw [here]
              exact Bool.eq_false_iff.mpr open')
        rw [List.find?_cons_of_neg open', aborted] at *
        obtain ⟨stack, outcome⟩ := later
        refine ⟨stack, ?_⟩
        split at outcome
        · exact still_trans listening outcome
        · obtain ⟨reason, found, marks⟩ := outcome
          rw [listening.reason] at found
          rw [listening.wave] at marks
          exact ⟨reason, found, marks_after listening marks⟩

theorem find_earlier {p : Nat → Bool} {l : List Nat} {found : Nat} (search : l.find? p = some found) :
    ∀ s ∈ l.takeWhile (· ≠ found), p s = false := by
  induction l with
  | nil => cases search
  | cons a rest ih =>
    intro s member
    cases here : p a with
    | true =>
      rw [List.find?_cons_of_pos here] at search
      cases search
      simp at member
    | false =>
      rw [List.find?_cons_of_neg (by simp [here])] at search
      rw [List.takeWhile_cons] at member
      split at member
      · rcases List.mem_cons.mp member with rfl | later
        · exact here
        · exact ih search s later
      · cases member

theorem made_combineAbortSignals {first second : Nat} (known : first < w.count) (known' : second < w.count) :
    Made w (combineAbortSignals w [first, second]).2 := by
  have below : ∀ s ∈ [first, second], s < w.count := by
    intro s member
    rcases List.mem_pair.mp member with here | here
    · rwa [here]
    · rwa [here]
  have waves := (combineAbortSignals_made w first second).2.waves
  have live : (create w (combination w [first, second])).aborted w.count = false := by
    rw [aborted_create, if_pos rfl]
    rfl
  have alone : ((create w (combination w [first, second])).signal w.count).listeners = [] := by
    rw [create_signal, if_pos rfl]
    rfl
  have apart : w.count ∉ [first, second] := fun member => Nat.lt_irrefl _ (below _ member)
  obtain ⟨stack, outcome⟩ := combineLoop_marks [] live alone apart (by intro s member; cases member)
  have frames : ∀ s, Dispatching (combineAbortSignals w [first, second]).2 s → Dispatching w s := by
    rintro s ⟨remaining, frame⟩
    have here : Frame.dispatch s remaining ∈
        (combineLoop w.count (create w (combination w [first, second])) [first, second] []).stack := frame
    rw [stack] at here
    exact ⟨remaining, here⟩
  have same : [first, second].find? (create w (combination w [first, second])).aborted = [first, second].find? w.aborted := by
    have agree : ∀ s ∈ [first, second], (create w (combination w [first, second])).aborted s = w.aborted s := by
      intro s member
      rw [aborted_create, if_neg (Nat.ne_of_lt (below s member))]
    have one := agree first (by simp)
    have two := agree second (by simp)
    simp only [List.find?_cons, one, two, List.find?_nil]
  rw [same] at outcome
  cases search : [first, second].find? w.aborted with
  | none =>
    rw [search] at outcome
    exact made_still rfl (show (combination w [first, second]).born = none from search) below outcome waves frames
  | some found =>
    rw [search] at outcome
    obtain ⟨reason, carried, marks⟩ := outcome
    have member : found ∈ [first, second] := List.mem_of_find?_eq_some search
    have old : (create w (combination w [first, second])).signal found = w.signal found := by
      rw [create_signal, if_neg (Nat.ne_of_lt (below found member))]
    rw [old] at carried marks
    refine made_marks (combination w [first, second]) found search member carried ?_ below marks waves frames
    exact find_earlier search

theorem made_root (w : World E) : Made w (create w { origin := .root }) := by
  refine made_still rfl rfl ?_ (still_refl _) rfl fun s busy => busy
  intro s source
  cases source

end Order

end AbortSignals

namespace ContextDerivations
open Numbers AbortSignals Transitions

section Order
variable {E : Type} {s t : System E}

/-- Owners abort their signals only while no abort event is in progress. -/
def Unnested (s : System E) : Action E → Prop
  | .abort _ _ => s.world.stack = []
  | _ => True

theorem effect_ordered {w w' : World E} {of result : AnyContext} {d : Derivation} (ordered : Ordered w)
    (woven : Woven w none) (known : of.signal < w.count) (joinable : ∀ other, joinedBy d = some other → other < w.count)
    (effect : Effect w of d result w') : Ordered w' := by
  cases effect with
  | kept => exact ordered
  | composed limit => exact made_ordered ordered woven (made_composeSignal known limit)
  | combined other joins =>
    apply made_ordered ordered woven (made_combineAbortSignals known (joinable other ?_))
    rw [joins]
    rfl
  | detached => exact made_ordered ordered woven (made_root w)

theorem step_ordered {a : Action E} (known : Known s) (woven : Woven s.world none) (ordered : Ordered s.world)
    (admitted : Unnested s a) (next : step s a = some t) : Ordered t.world := by
  cases a with
  | newSignal =>
    cases next
    exact made_ordered ordered woven (made_root s.world)
  | newContext message signal =>
    simp only [step] at next
    split at next <;> cases next
    exact ordered
  | abort signal reason =>
    simp only [step] at next
    split at next <;> cases next
    rename_i owned
    exact abortFirst_ordered ordered woven admitted (still_refl _) rfl rfl (.inr owned.2)
  | derive c d =>
    cases step_enlarged next with
    | same w quiet => exact absurd rfl (quiet c d)
    | fresh => exact ordered
    | derived here found passed deadline effect =>
      cases here
      have known' := known _ (List.mem_of_getElem? found)
      exact effect_ordered ordered woven known' (fun other joins => joinable_iff passed joins) effect
  | elapse time =>
    simp only [step] at next
    split at next <;> cases next
    exact still_ordered ordered ⟨fun _ => rfl, fun _ => rfl, fun _ => rfl, fun _ => rfl⟩ rfl fun s busy => busy
  | fire child =>
    obtain ⟨w, fired, same⟩ := Option.map_eq_some_iff.mp next
    cases same
    obtain ⟨parent, deadline, due, origin, quiet, -, -, rfl⟩ := fire_cases fired
    have kept := still_trans (still_clearTimer s.world child) (still_removeListener (clearTimer s.world child) parent child)
    exact abortFirst_ordered ordered woven quiet kept rfl rfl (.inl rfl)
  | advance =>
    obtain ⟨w, advanced, same⟩ := Option.map_eq_some_iff.mp next
    cases same
    exact advance_ordered ordered woven advanced

theorem ordered_init : Ordered ({} : World E) where
  below _ ended := by cases ended
  same _ _ ended := by cases ended
  unborn _ _ := rfl
  found _ _ born := by cases born
  first _ _ ended := by cases ended
  cause _ ended := by cases ended
  current := by
    rintro s ⟨remaining, frame⟩
    cases frame

theorem unnested_ordered (run : Steps step Unnested {} s) : Ordered s.world := by
  have held : Ordered s.world ∧ Woven s.world none ∧ Known s := by
    refine steps_invariant (fun s => Ordered s.world ∧ Woven s.world none ∧ Known s) ?_ run
      ⟨ordered_init, woven_init, by intro derived member; cases member⟩
    intro s a t held admitted next
    exact ⟨step_ordered held.2.2 held.2.1 held.1 admitted next, step_woven held.2.2 held.2.1 next,
      step_known held.2.2 next⟩
  exact held.1

end Order

end ContextDerivations
