import TypeNotation.Proofs.Lexical.Rollback

/-!
# Leaving out a look-ahead

A look-ahead comes back to where it began, so a program may do without it. Only its snapshots
outlive it. A program that goes back to none of them gets the same answers when the look-ahead is
taken out, wherever it stood; but a snapshot is known by its index, and the indices of later ones
then are smaller by the number of those that are gone.
-/

namespace TypeNotation

/-! ## Snapshots of a program -/

mutual

/-- The number of snapshots that a request keeps. -/
def Step.saves : Step → Nat
  | .scan => 0
  | .save => 1
  | .restore _ => 0
  | .lookAhead steps => Step.savesOf steps

def Step.savesOf : List Step → Nat
  | [] => 0
  | step :: steps => step.saves + Step.savesOf steps

end

mutual

/-- The request goes back to none of the `count` snapshots from the index `first` on. -/
def Step.Avoids (first count : Nat) : Step → Prop
  | .scan => True
  | .save => True
  | .restore index => index < first ∨ first + count ≤ index
  | .lookAhead steps => Step.AllAvoid first count steps

def Step.AllAvoid (first count : Nat) : List Step → Prop
  | [] => True
  | step :: steps => step.Avoids first count ∧ Step.AllAvoid first count steps

end

/-- The index of a snapshot when `count` of them from the index `first` on are gone. -/
def shiftIndex (first count index : Nat) : Nat := if index < first then index else index - count

mutual

/-- The request with its indices shifted. -/
def Step.shift (first count : Nat) : Step → Step
  | .scan => .scan
  | .save => .save
  | .restore index => .restore (shiftIndex first count index)
  | .lookAhead steps => .lookAhead (Step.shiftAll first count steps)

def Step.shiftAll (first count : Nat) : List Step → List Step
  | [] => []
  | step :: steps => step.shift first count :: Step.shiftAll first count steps

end

mutual

def StepReport.shift (first count : Nat) : StepReport → StepReport
  | .scanned result after => .scanned result after
  | .saved index after => .saved (shiftIndex first count index) after
  | .restored found after => .restored found after
  | .lookedAhead reports after => .lookedAhead (StepReport.shiftAll first count reports) after

def StepReport.shiftAll (first count : Nat) : List StepReport → List StepReport
  | [] => []
  | report :: reports => report.shift first count :: StepReport.shiftAll first count reports

end

/-- The session without `count` of its snapshots, from the index `first` on. -/
def Session.without (first count : Nat) (session : Session) : Session :=
  { session with
    snapshots := session.snapshots.take first ++ session.snapshots.drop (first + count) }

theorem Step.savesOf_append (steps more : List Step) :
    savesOf (steps ++ more) = savesOf steps + savesOf more := by
  induction steps with
  | nil => rw [List.nil_append, savesOf, Nat.zero_add]
  | cons step steps ih => rw [List.cons_append, savesOf, savesOf, ih, Nat.add_assoc]

theorem StepReport.shiftAll_append (first count : Nat) (reports more : List StepReport) :
    shiftAll first count (reports ++ more) =
      shiftAll first count reports ++ shiftAll first count more := by
  induction reports with
  | nil => rfl
  | cons report reports ih => rw [List.cons_append, shiftAll, shiftAll, ih, List.cons_append]

/-! ## Runs -/

namespace Session

theorem run_append (session : Session) (steps more : List Step) :
    session.run (steps ++ more) =
      ((session.run steps).1 ++ ((session.run steps).2.run more).1,
        ((session.run steps).2.run more).2) := by
  induction steps generalizing session with
  | nil => rfl
  | cons step steps ih => simp only [List.cons_append, run, ih]

theorem length_run (session : Session) (steps : List Step) :
    (session.run steps).1.length = steps.length := by
  induction steps generalizing session with
  | nil => rfl
  | cons step steps ih => simp only [run, List.length_cons, ih]

mutual

theorem snapshots_step (session : Session) : (step : Step) →
    ∃ more, (session.step step).2.snapshots = session.snapshots ++ more ∧ more.length = step.saves
  | .scan => ⟨[], by simp [step], rfl⟩
  | .save => ⟨[session.scanner], rfl, rfl⟩
  | .restore index => by
    refine ⟨[], ?_, rfl⟩
    rw [step, List.append_nil]
    split <;> rfl
  | .lookAhead steps => snapshots_run session steps

theorem snapshots_run (session : Session) : (steps : List Step) →
    ∃ more, (session.run steps).2.snapshots = session.snapshots ++ more ∧
      more.length = Step.savesOf steps
  | [] => ⟨[], (List.append_nil _).symm, rfl⟩
  | step :: steps => by
    obtain ⟨kept, hkept, hlength⟩ := snapshots_step session step
    obtain ⟨more, hmore, hlength'⟩ := snapshots_run (session.step step).2 steps
    refine ⟨kept ++ more, ?_, ?_⟩
    · rw [run, hmore, hkept, List.append_assoc]
    · rw [List.length_append, hlength, hlength', Step.savesOf]

end

theorem length_snapshots_run (session : Session) (steps : List Step) :
    (session.run steps).2.snapshots.length =
      session.snapshots.length + Step.savesOf steps := by
  obtain ⟨more, hmore, hlength⟩ := session.snapshots_run steps
  rw [hmore, List.length_append, hlength]

/-- A look-ahead leaves its snapshots behind and nothing else. -/
theorem without_lookAhead (session : Session) (block : List Step) :
    (session.step (.lookAhead block)).2.without session.snapshots.length (Step.savesOf block) =
      session := by
  obtain ⟨more, hmore, hlength⟩ := session.snapshots_run block
  simp only [step, without, hmore]
  rw [List.take_left, ← hlength, ← List.length_append, List.drop_length, List.append_nil]

/-! ## Sessions with fewer snapshots -/

variable {first count : Nat}

/-- The snapshots that are left are found under their shifted indices. -/
theorem getElem?_without {session : Session} (index : Nat)
    (hbound : first + count ≤ session.snapshots.length)
    (hindex : index < first ∨ first + count ≤ index) :
    (session.without first count).snapshots[shiftIndex first count index]? =
      session.snapshots[index]? := by
  have hlength : (session.snapshots.take first).length = first := by
    rw [List.length_take]
    omega
  rw [without, shiftIndex]
  rcases hindex with hlt | hle
  · rw [if_pos hlt, List.getElem?_append_left (by omega), List.getElem?_take_of_lt hlt]
  · rw [if_neg (by omega), List.getElem?_append_right (by omega), List.getElem?_drop, hlength]
    congr 1
    omega

mutual

theorem step_without (session : Session)
    (hbound : first + count ≤ session.snapshots.length) : (step : Step) →
    step.Avoids first count →
    (session.without first count).step (step.shift first count) =
      ((session.step step).1.shift first count, (session.step step).2.without first count)
  | .scan, _ => rfl
  | .save, _ => by
    have hindex : (session.without first count).snapshots.length =
        shiftIndex first count session.snapshots.length := by
      rw [without, shiftIndex, if_neg (by omega), List.length_append, List.length_take,
        List.length_drop]
      omega
    simp only [Step.shift, step, StepReport.shift, hindex]
    simp only [without, List.take_append_of_le_length (Nat.le_trans (Nat.le_add_right _ _) hbound),
      List.drop_append_of_le_length hbound, List.append_assoc]
  | .restore index, havoids => by
    have hfound := getElem?_without index hbound (by simpa only [Step.Avoids] using havoids)
    simp only [Step.shift, step, hfound]
    cases session.snapshots[index]? <;> rfl
  | .lookAhead steps, havoids => by
    have hrun := run_without session hbound steps (by simpa only [Step.Avoids] using havoids)
    simp only [Step.shift, step, hrun, StepReport.shift]
    rfl

/-- A program that goes back to none of the snapshots that are left out answers as it does with
them. -/
theorem run_without (session : Session)
    (hbound : first + count ≤ session.snapshots.length) : (steps : List Step) →
    Step.AllAvoid first count steps →
    (session.without first count).run (Step.shiftAll first count steps) =
      (StepReport.shiftAll first count (session.run steps).1,
        (session.run steps).2.without first count)
  | [], _ => rfl
  | step :: steps, havoids => by
    rw [Step.AllAvoid] at havoids
    obtain ⟨more, hmore, -⟩ := snapshots_step session step
    -- no request takes a snapshot away, so those that are left out are there for the rest too
    have hnext : first + count ≤ (session.step step).2.snapshots.length := by
      rw [hmore, List.length_append]
      omega
    simp only [Step.shiftAll, run, step_without session hbound step havoids.1,
      run_without _ hnext steps havoids.2, StepReport.shiftAll]

end

mutual

theorem shift_step (session : Session) : (step : Step) →
    session.snapshots.length + step.saves ≤ first →
    (session.step step).1.shift first count = (session.step step).1
  | .scan, _ => rfl
  | .save, hbound => by
    have hlt : session.snapshots.length < first := by
      rw [Step.saves] at hbound
      omega
    rw [step, StepReport.shift, shiftIndex, if_pos hlt]
  | .restore index, _ => by
    rw [step]
    split <;> rfl
  | .lookAhead steps, hbound => by
    have hrun := shiftAll_run session steps (by simpa only [Step.saves] using hbound)
    simp only [step, StepReport.shift, hrun]

/-- In front of the snapshots that are left out no index changes. -/
theorem shiftAll_run (session : Session) : (steps : List Step) →
    session.snapshots.length + Step.savesOf steps ≤ first →
    StepReport.shiftAll first count (session.run steps).1 = (session.run steps).1
  | [], _ => rfl
  | step :: steps, hbound => by
    obtain ⟨more, hmore, hlength⟩ := snapshots_step session step
    rw [Step.savesOf] at hbound
    have hnext : (session.step step).2.snapshots.length + Step.savesOf steps ≤ first := by
      rw [hmore, List.length_append, hlength]
      omega
    simp only [run, StepReport.shiftAll, shift_step session step (by omega),
      shiftAll_run _ steps hnext]

end

end Session

/-! ## Places in a program -/

/-- A program with a gap for requests, in it or in a look-ahead of it. -/
inductive Gap
  | here (before after : List Step)
  | inside (before : List Step) (gap : Gap) (after : List Step)

namespace Gap

/-- The program with the requests in its gap. -/
def fill (steps : List Step) : Gap → List Step
  | here before after => before ++ (steps ++ after)
  | inside before gap after => before ++ .lookAhead (gap.fill steps) :: after

/-- The number of snapshots kept in front of the gap. -/
def saves : Gap → Nat
  | here before _ => Step.savesOf before
  | inside before gap _ => Step.savesOf before + gap.saves

/-- What comes behind the gap goes back to none of the `count` snapshots from the index `first`
on. -/
def Avoids (first count : Nat) : Gap → Prop
  | here _ after => Step.AllAvoid first count after
  | inside _ gap after => gap.Avoids first count ∧ Step.AllAvoid first count after

def shift (first count : Nat) : Gap → Gap
  | here before after => here before (Step.shiftAll first count after)
  | inside before gap after =>
    inside before (gap.shift first count) (Step.shiftAll first count after)

/-- The reports without that on the one request in the gap. -/
def omitReport : Gap → List StepReport → List StepReport
  | here before _, reports => reports.eraseIdx before.length
  | inside before gap _, reports => reports.modify before.length fun
    | .lookedAhead inner after => .lookedAhead (gap.omitReport inner) after
    | report => report

theorem saves_le (gap : Gap) (steps : List Step) :
    gap.saves + Step.savesOf steps ≤ Step.savesOf (gap.fill steps) := by
  induction gap with
  | here before after =>
    rw [saves, fill, Step.savesOf_append, Step.savesOf_append]
    omega
  | inside before gap after ih =>
    rw [saves, fill, Step.savesOf_append, Step.savesOf, Step.saves]
    omega

end Gap

namespace Session

variable {first count : Nat}

theorem run_append_cons (session : Session) (before : List Step) (step : Step)
    (after : List Step) :
    session.run (before ++ step :: after) =
      ((session.run before).1 ++ ((session.run before).2.step step).1 ::
          (((session.run before).2.step step).2.run after).1,
        (((session.run before).2.step step).2.run after).2) := by
  rw [run_append, run]

/-- A part of a program takes the place of a request that does the same but for some snapshots. -/
theorem run_instead (session : Session) (before part : List Step) (step : Step)
    {after : List Step} {reports : List StepReport}
    (hfirst : session.snapshots.length + Step.savesOf before ≤ first)
    (hbound : first + count ≤ session.snapshots.length + Step.savesOf before + step.saves)
    (havoids : Step.AllAvoid first count after)
    (hpart : (session.run before).2.run part =
      (reports, ((session.run before).2.step step).2.without first count)) :
    session.run (before ++ (part ++ Step.shiftAll first count after)) =
      (StepReport.shiftAll first count (session.run before).1 ++ (reports ++
          StepReport.shiftAll first count (((session.run before).2.step step).2.run after).1),
        (((session.run before).2.step step).2.run after).2.without first count) := by
  obtain ⟨more, hmore, hlength⟩ := (session.run before).2.snapshots_step step
  have hkept : first + count ≤ ((session.run before).2.step step).2.snapshots.length := by
    rw [hmore, List.length_append, hlength, length_snapshots_run]
    exact hbound
  rw [run_append, run_append, hpart]
  simp only [run_without _ hkept after havoids, session.shiftAll_run before hfirst]

/-- A look-ahead may be left out: if what comes behind it goes back to none of its snapshots, every
other answer stays the same. -/
theorem run_fill_nil (session : Session) (block : List Step) (gap : Gap)
    (hfirst : first = session.snapshots.length + gap.saves) (hcount : count = Step.savesOf block)
    (havoids : gap.Avoids first count) :
    session.run ((gap.shift first count).fill []) =
      (StepReport.shiftAll first count
          (gap.omitReport (session.run (gap.fill [.lookAhead block])).1),
        (session.run (gap.fill [.lookAhead block])).2.without first count) := by
  -- on the place of the gap: wherever it is, `first` counts the snapshots kept in front of it
  induction gap generalizing session with
  | here before after =>
    rw [Gap.saves] at hfirst
    have hgone := (session.run before).2.without_lookAhead block
    rw [length_snapshots_run, ← hfirst, ← hcount] at hgone
    have hrun := session.run_instead before [] (.lookAhead block) (Nat.le_of_eq hfirst.symm)
      (by rw [Step.saves]; omega) havoids (by rw [hgone, run])
    rw [Gap.shift, Gap.fill, hrun, Gap.fill, List.singleton_append, run_append_cons, Gap.omitReport,
      ← session.length_run before, List.eraseIdx_append_of_length_le (Nat.le_refl _), Nat.sub_self,
      List.eraseIdx_cons_zero, StepReport.shiftAll_append, List.nil_append]
  | inside before gap after ih =>
    rw [Gap.saves, ← Nat.add_assoc] at hfirst
    -- the look-ahead around the gap goes back to its own start, with the block or without
    have hinner := ih (session.run before).2 (by rw [length_snapshots_run, hfirst]) havoids.1
    have hsaves := gap.saves_le [.lookAhead block]
    rw [Step.savesOf, Step.saves, ← hcount] at hsaves
    have hrun := session.run_instead before [.lookAhead ((gap.shift first count).fill [])]
      (.lookAhead (gap.fill [.lookAhead block])) (by omega)
      (by rw [Step.saves]; omega) havoids.2 (by rw [run, step, hinner]; rfl)
    rw [Gap.shift, Gap.fill, ← List.singleton_append, hrun, Gap.fill, run_append_cons,
      Gap.omitReport, ← session.length_run before, List.modify_eq_take_drop, List.take_left,
      List.drop_left, List.modifyHead_cons, StepReport.shiftAll_append]
    rfl

end Session

/-- **Sessions move on one stream of scans.** A scan that fails keeps the token and its span and
moves on in the text. Whatever a program asks for, every answer is that of the scan which the
counter names, and every scanner and snapshot is that of the counted place: scans count up, going
back to a snapshot goes back to its count, and a look-ahead ends at the count where it began. So a
look-ahead that is never gone back to may be left out, and no other answer changes. -/
theorem sessions_share_one_stream (source : String) :
    (∀ n error, (Scanner.after source n).scan.1 = .error error →
      (Scanner.after source (n + 1)).token = (Scanner.after source n).token ∧
      (Scanner.after source (n + 1)).span = (Scanner.after source n).span ∧
      (Scanner.after source (n + 1)).cursor.rest.length <
        (Scanner.after source n).cursor.rest.length) ∧
    (∀ steps, (Session.ofSource source).run steps =
      (CounterReport.allInStream source (Counter.start.run steps).1,
        (Counter.start.run steps).2.session source)) ∧
    ∀ (gap : Gap) (block : List Step), gap.Avoids gap.saves (Step.savesOf block) →
      ((Session.ofSource source).run
          ((gap.shift gap.saves (Step.savesOf block)).fill [])).1 =
        StepReport.shiftAll gap.saves (Step.savesOf block)
          (gap.omitReport ((Session.ofSource source).run (gap.fill [.lookAhead block])).1) := by
  refine ⟨fun n error h ↦ Scanner.after_succ_of_error source h, fun steps ↦ ?_,
    fun gap block havoids ↦ ?_⟩
  · rw [← Counter.session_start, Counter.session_run]
  · have hfirst : gap.saves = (Session.ofSource source).snapshots.length + gap.saves :=
      (Nat.zero_add _).symm
    rw [Session.run_fill_nil _ block gap hfirst rfl havoids]

/-- Behind a look-ahead with a fault in it and a snapshot of its own, a program goes back to the
snapshot before it and to the one after it. -/
theorem sessions_share_one_stream_behind_fault :
    let gap := Gap.here [.scan, .save] [.scan, .save, .restore 0, .restore 2]
    let block := [Step.scan, .save, .scan]
    gap.Avoids gap.saves (Step.savesOf block) ∧
      ((Session.ofSource "a # b").run ((gap.shift gap.saves (Step.savesOf block)).fill [])).1 =
        StepReport.shiftAll gap.saves (Step.savesOf block) (gap.omitReport
          ((Session.ofSource "a # b").run (gap.fill [.lookAhead block])).1) := by
  intro gap block
  have havoids : gap.Avoids gap.saves (Step.savesOf block) :=
    ⟨trivial, trivial, .inl (by decide), .inr (by decide), trivial⟩
  exact ⟨havoids, (sessions_share_one_stream "a # b").2.2 gap block havoids⟩

end TypeNotation
