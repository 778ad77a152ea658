import Antimeridian.Proofs.Rendering.Counting
import Antimeridian.Proofs.Rendering.Invariant

/-!
# Sessions with a request

A caller asks a request for its queries and has geometries worked on, any number of times and in
any order. In between it may choose anew whether queries are split at the antimeridian, and clear
the lists it was given. Queries that were planned are given ever after; planning that fails leaves
nothing behind. The copies that are counted are those of the geometries worked on, and of nothing
else.

Copies are counted before they are gathered. Those that cannot be gathered have been counted, too.
-/

namespace Antimeridian.Rendering

open Antimeridian.Geometry

variable {α : Type}

/-- What a caller can do with a request. -/
inductive Call (α : Type) where
  | queries
  | requiresProcessing (g : Option (Geometry α))
  | preProcess (g : Option (Geometry α))
  | postProcess (transform : Option (Transform α)) (g : Option (Geometry α))
  /-- Choose whether queries are split at the antimeridian. -/
  | splitAcross (across : Bool)
  /-- Clear one of the lists that were given. -/
  | clear (index : Nat)

/-- What a caller gets back. -/
inductive Answer (α : Type) where
  | queries (result : Except (Failure α) (List (Envelope α)))
  | required (result : Except (Failure α) Bool)
  | revision (result : Except (Failure α) (Revision α))
  | done

/-- Whether a call came to a result. -/
def Answer.isResult : Answer α → Bool
  | .queries result => result.isOk
  | .required result => result.isOk
  | .revision result => result.isOk
  | .done => true

/-- A request being worked on, and the lists of queries in the hands of its caller. -/
structure Session (α : Type) where
  state : State α
  held : List (List (Envelope α)) := []

variable [Scalar α] (setting : Setting α) (r : Rendering α)

/-- A session in which nothing has been done yet. -/
def opened (across : Bool) : Session α :=
  { state := { r.start with acrossDateline := across } }

/-- What a call comes to, and the session after it. Every caller is given a list of its own. -/
def step (s : Session α) : Call α → Answer α × Session α
  | .queries =>
    let (result, state) := (r.queries setting).outcome s.state
    (.queries result, { state, held := s.held ++ result.toOption.toList })
  | .requiresProcessing g =>
    let (result, state) := (r.requiresProcessing setting g).outcome s.state
    (.required result, { s with state })
  | .preProcess g =>
    let (result, state) := (r.preProcess setting g).outcome s.state
    (.revision result, { s with state })
  | .postProcess transform g =>
    let (result, state) := (r.postProcess setting transform g).outcome s.state
    (.revision result, { s with state })
  | .splitAcross across => (.done, { s with state := { s.state with acrossDateline := across } })
  | .clear index => (.done, { s with held := s.held.set index [] })

/-- The session after some calls. -/
def after (s : Session α) (calls : List (Call α)) : Session α :=
  calls.foldl (fun s call => (r.step setting s call).2) s

theorem after_append (s : Session α) (before later : List (Call α)) :
    r.after setting s (before ++ later) = r.after setting (r.after setting s before) later :=
  List.foldl_append

/-! ## Queries -/

theorem outcome_queries_eq (s : State α) :
    (r.queries setting).outcome s =
      match s.queries with
      | some found => (.ok found, s)
      | none =>
        match r.plan setting s.acrossDateline with
        | .ok found => (.ok found, { s with queries := some found })
        | .error failure => (.error failure, s) := by
  unfold queries
  rw [Action.outcome_bind, Action.outcome_get]
  cases hqueries : s.queries with
  | some found => simp only [hqueries, Action.outcome_pure]
  | none =>
      simp only [hqueries]
      rw [Action.outcome_bind, Action.outcome_lift]
      cases r.plan setting s.acrossDateline <;> rfl

/-- Whether a call looks at the queries: a geometry has to be there for it, and whether it needs
work can be known without them. -/
def consults : Call α → Bool
  | .queries => true
  | .preProcess g => (checkGeometry g).isOk
  | .requiresProcessing g =>
    match checkGeometry g with
    | .error _ => false
    | .ok shape =>
      !r.makesCopies &&
        (r.validMask setting (Envelope.ofGeometry shape (some r.source)) matches .ok none)
  | _ => false

theorem state_queries (s : State α) :
    ((r.queries setting).outcome s).2 =
      { s with queries := s.queries <|> (r.plan setting s.acrossDateline).toOption } := by
  rw [outcome_queries_eq]
  obtain ⟨across, kept, made⟩ := s
  cases kept with
  | some found => rfl
  | none => cases r.plan setting across <;> rfl

/-- Once it has looked at the queries, cutting changes nothing more. -/
theorem state_preProcess (g : Option (Geometry α)) (s : State α) :
    ((r.preProcess setting g).outcome s).2 =
      bif r.consults setting (.preProcess g) then ((r.queries setting).outcome s).2 else s := by
  rw [consults]
  cases hcheck : checkGeometry g with
  | error failure =>
      rw [preProcess, Action.outcome_bind, Action.outcome_lift, hcheck]
      rfl
  | ok shape =>
      obtain ⟨rfl, hne⟩ := checkGeometry_eq_ok.mp hcheck
      rw [outcome_preProcess_eq hne]
      rcases (r.queries setting).outcome s with ⟨failure | found, s'⟩ <;> rfl

theorem state_requiresProcessing (g : Option (Geometry α)) (s : State α) :
    ((r.requiresProcessing setting g).outcome s).2 =
      bif r.consults setting (.requiresProcessing g) then ((r.queries setting).outcome s).2
      else s := by
  rw [requiresProcessing, consults]
  rw [Action.outcome_bind, Action.outcome_lift]
  cases checkGeometry g with
  | error failure => rfl
  | ok shape =>
      cases r.makesCopies with
      | true => rfl
      | false =>
          simp only [Bool.false_eq_true, ↓reduceIte, Action.outcome_bind, Action.outcome_lift]
          rcases r.validMask setting (Envelope.ofGeometry shape (some r.source)) with
            failure | _ | valid
          · rfl
          · simp only [Action.outcome_bind]
            rcases (r.queries setting).outcome s with ⟨failure | found, s'⟩ <;> rfl
          · rfl

/-! ## Copies -/

/-- The copies that a call makes. -/
def copiesOf : Call α → Except (Failure α) (List (Geometry α))
  | .postProcess transform g => checkGeometry g >>= r.copies setting transform
  | _ => .ok []

/-- The number of copies that a call makes, the first one aside. -/
def extra (call : Call α) : Nat :=
  match r.copiesOf setting call with
  | .ok made => made.length - 1
  | .error _ => 0

/-- Whether a call makes copies that cannot be gathered. -/
def FailsToGather (call : Call α) : Prop :=
  ∃ made, r.copiesOf setting call = .ok made ∧ ∀ result, gathered made ≠ .ok result

/-- What working on a rendered geometry comes to is gathered from its copies, and it changes
nothing but their number. -/
theorem outcome_postProcess_copies (transform : Option (Transform α)) {g : Option (Geometry α)}
    {shape : Geometry α} (hcheck : checkGeometry g = .ok shape) (s : State α) :
    (·.applyTo shape) <$> ((r.postProcess setting transform g).outcome s).1 =
        r.copies setting transform shape >>= gathered ∧
      ((r.postProcess setting transform g).outcome s).2 =
        { s with copiesMade := s.copiesMade + r.extra setting (.postProcess transform g) } := by
  obtain ⟨rfl, hne⟩ := checkGeometry_eq_ok.mp hcheck
  have hgathers := gathers_postProcess setting r transform hne s
  have hmap : ((·.applyTo shape) <$> r.postProcess setting transform (some shape)).outcome s =
      ((·.applyTo shape) <$> ((r.postProcess setting transform (some shape)).outcome s).1,
        ((r.postProcess setting transform (some shape)).outcome s).2) := by
    rw [Action.outcome_map]
    rcases (r.postProcess setting transform (some shape)).outcome s with ⟨failure | rev, s'⟩ <;> rfl
  rw [hmap] at hgathers
  rw [extra, copiesOf, hcheck]
  change _ ∧ _ = { s with copiesMade := s.copiesMade + match r.copies setting transform shape with
    | .ok made => made.length - 1
    | .error _ => 0 }
  cases hmade : r.copies setting transform shape <;> rw [hmade] at hgathers <;>
    exact Prod.mk.inj hgathers

/-- A geometry that is worked on with a result is shown at different places up to the cap. -/
theorem exists_shown {transform : Option (Transform α)} {g : Option (Geometry α)} {s : State α}
    {rev : Revision α} (hrev : ((r.postProcess setting transform g).outcome s).1 = .ok rev) :
    ∃ shape whole made, g = some shape ∧
      r.copiesOf setting (.postProcess transform g) = .ok made ∧
      IsWhole setting r shape whole ∧ AreMoves r whole made ∧
      made.length ≤ 2 * r.cap.toNat + 1 ∧ gathered made = .ok (rev.applyTo shape) := by
  cases hcheck : checkGeometry g with
  | error failure =>
      rw [postProcess, Action.outcome_bind, Action.outcome_lift, hcheck] at hrev
      cases hrev
  | ok shape =>
      have heq := (outcome_postProcess_copies setting r transform hcheck s).1
      rw [hrev] at heq
      obtain ⟨made, hmade, hgathered⟩ := bind_eq_ok_iff.mp heq.symm
      obtain ⟨whole, hwhole, hmoves⟩ := exists_whole_of_copies hmade
      have hcopies : r.copiesOf setting (.postProcess transform g) = .ok made := by
        rw [copiesOf, hcheck]
        exact hmade
      exact ⟨shape, whole, made, (checkGeometry_eq_ok.mp hcheck).1, hcopies, hwhole, hmoves,
        hmoves.length_le, hgathered⟩

theorem state_postProcess (transform : Option (Transform α)) (g : Option (Geometry α))
    (s : State α) :
    ((r.postProcess setting transform g).outcome s).2 =
      { s with copiesMade := s.copiesMade + r.extra setting (.postProcess transform g) } := by
  cases hcheck : checkGeometry g with
  | error failure =>
      rw [postProcess, Action.outcome_bind, Action.outcome_lift, extra, copiesOf, hcheck]
      rfl
  | ok shape => exact (outcome_postProcess_copies setting r transform hcheck s).2

/-! ## Steps -/

/-- Everything a call does to the state. Only a choice changes the choice, queries are planned by
the first call that looks at them, and kept if planning succeeds, and copies are counted. -/
theorem state_step (s : Session α) (call : Call α) :
    (r.step setting s call).2.state =
      { acrossDateline := match call with
          | .splitAcross across => across
          | _ => s.state.acrossDateline
        queries := bif r.consults setting call then
            s.state.queries <|> (r.plan setting s.state.acrossDateline).toOption
          else s.state.queries
        copiesMade := s.state.copiesMade + r.extra setting call } := by
  cases call with
  | queries => exact state_queries setting r s.state
  | requiresProcessing g =>
      refine (state_requiresProcessing setting r g s.state).trans ?_
      rw [state_queries]
      cases r.consults setting (.requiresProcessing g) <;> rfl
  | preProcess g =>
      refine (state_preProcess setting r g s.state).trans ?_
      rw [state_queries]
      cases r.consults setting (.preProcess g) <;> rfl
  | postProcess transform g => exact state_postProcess setting r transform g s.state
  | splitAcross across => rfl
  | clear index => rfl

theorem failsToGather_iff (s : Session α) (call : Call α) :
    r.FailsToGather setting call ↔
      (r.step setting s call).1.isResult = false ∧ 0 < r.extra setting call := by
  -- a call that makes no copies gathers nothing
  have hnone (hcopies : r.copiesOf setting call = .ok []) : r.FailsToGather setting call ↔
      (r.step setting s call).1.isResult = false ∧ 0 < r.extra setting call := by
    rw [FailsToGather, extra, hcopies]
    refine iff_of_false ?_ (by simp)
    rintro ⟨made, hmade, hfails⟩
    rw [← Except.ok.inj hmade] at hfails
    exact hfails nothing rfl
  cases call with
  | postProcess transform g =>
      cases hcheck : checkGeometry g with
      | error failure => simp [FailsToGather, extra, copiesOf, hcheck, bind, Except.bind]
      | ok shape =>
          have heq := (outcome_postProcess_copies setting r transform hcheck s.state).1
          have hcopies : r.copiesOf setting (.postProcess transform g) =
              r.copies setting transform shape := by rw [copiesOf, hcheck]; rfl
          rw [FailsToGather, extra, hcopies]
          cases hmade : r.copies setting transform shape with
          | error failure => simp
          | ok made =>
              rw [hmade] at heq
              obtain ⟨whole, -, hmoves⟩ := exists_whole_of_copies hmade
              refine Iff.trans ?_ (not_gathered_iff heq hmoves.length_pos)
              simp
  | _ => exact hnone rfl

theorem exists_postProcess_of_extra {s : Session α} {call : Call α}
    (hextra : 0 < r.extra setting call) (hresult : (r.step setting s call).1.isResult = true) :
    ∃ transform g rev, call = .postProcess transform g ∧
      (r.step setting s call).1 = .revision (.ok rev) := by
  cases call with
  | postProcess transform g =>
      have hisOk : ((r.postProcess setting transform g).outcome s.state).1.isOk = true := hresult
      cases hwork : ((r.postProcess setting transform g).outcome s.state).1 with
      | error failure =>
          rw [hwork] at hisOk
          contradiction
      | ok rev => exact ⟨transform, g, rev, rfl, congrArg Answer.revision hwork⟩
  | _ => simp [extra, copiesOf] at hextra

/-! ## Runs -/

theorem queries_after {s : Session α} {found : List (Envelope α)}
    (hfound : s.state.queries = some found) (calls : List (Call α)) :
    (r.after setting s calls).state.queries = some found := by
  induction calls generalizing s with
  | nil => exact hfound
  | cons call rest ih =>
      refine ih ?_
      rw [state_step, hfound]
      cases r.consults setting call <;> rfl

/-- Queries that are kept were planned, for some choice about the antimeridian. -/
theorem exists_plan_after {s : Session α}
    (hplanned : ∀ found ∈ s.state.queries, ∃ across, r.plan setting across = .ok found)
    (calls : List (Call α)) :
    ∀ found ∈ (r.after setting s calls).state.queries,
      ∃ across, r.plan setting across = .ok found := by
  induction calls generalizing s with
  | nil => exact hplanned
  | cons call rest ih =>
      refine ih fun found hfound => ?_
      rw [state_step] at hfound
      cases hconsults : r.consults setting call with
      | false =>
          rw [hconsults] at hfound
          exact hplanned found hfound
      | true =>
          rw [hconsults] at hfound
          cases hqueries : s.state.queries with
          | some own =>
              rw [hqueries] at hfound
              exact hplanned found (hqueries ▸ hfound)
          | none =>
              rw [hqueries] at hfound
              cases hplan : r.plan setting s.state.acrossDateline with
              | error failure =>
                  rw [hplan] at hfound
                  cases hfound
              | ok own =>
                  rw [hplan] at hfound
                  exact ⟨_, hplan.trans (congrArg Except.ok (Option.some.inj hfound))⟩

theorem copiesMade_after (s : Session α) (calls : List (Call α)) :
    (r.after setting s calls).state.copiesMade =
      s.state.copiesMade + (calls.map (r.extra setting)).sum := by
  induction calls generalizing s with
  | nil => rfl
  | cons call rest ih =>
      refine (ih _).trans ?_
      rw [state_step, List.map_cons, List.sum_cons, Nat.add_assoc]

/-- Without a new choice, a session goes on as if nothing had been done before. -/
theorem uniform_step {across : Bool} {call : Call α}
    (hchoice : ∀ other, call ≠ .splitAcross other) {s s' : Session α}
    (hs : PlannedAs setting r across s.state) (hs' : PlannedAs setting r across s'.state) :
    (r.step setting s call).1 = (r.step setting s' call).1 ∧
      PlannedAs setting r across (r.step setting s call).2.state := by
  cases call with
  | queries =>
      obtain ⟨hstays, hsame⟩ := uniform_queries setting r
      exact ⟨congrArg Answer.queries (hsame _ _ hs hs'), hstays _ hs⟩
  | requiresProcessing g =>
      obtain ⟨hstays, hsame⟩ := uniform_requiresProcessing setting r g
      exact ⟨congrArg Answer.required (hsame _ _ hs hs'), hstays _ hs⟩
  | preProcess g =>
      obtain ⟨hstays, hsame⟩ := uniform_preProcess setting r g
      exact ⟨congrArg Answer.revision (hsame _ _ hs hs'), hstays _ hs⟩
  | postProcess transform g =>
      obtain ⟨hstays, hsame⟩ := uniform_postProcess setting r transform g
      exact ⟨congrArg Answer.revision (hsame _ _ hs hs'), hstays _ hs⟩
  | splitAcross other => exact (hchoice other rfl).elim
  | clear index => exact ⟨rfl, hs⟩

theorem plannedAs_after {across : Bool} {calls : List (Call α)}
    (hchoice : ∀ other, .splitAcross other ∉ calls) {s : Session α}
    (hs : PlannedAs setting r across s.state) :
    PlannedAs setting r across (r.after setting s calls).state := by
  induction calls generalizing s with
  | nil => exact hs
  | cons call rest ih =>
      refine ih (fun other hmem => hchoice other (List.mem_cons_of_mem _ hmem)) ?_
      refine (uniform_step setting r (fun other heq => hchoice other ?_) hs hs).2
      exact heq ▸ List.mem_cons_self

/-- The copies made by those calls of a run that come to a result, the first one of each call
aside. -/
def counted (s : Session α) : List (Call α) → Nat
  | [] => 0
  | call :: rest =>
    (bif (r.step setting s call).1.isResult then r.extra setting call else 0) +
      counted (r.step setting s call).2 rest

theorem counted_le (s : Session α) (calls : List (Call α)) :
    r.counted setting s calls ≤ (calls.map (r.extra setting)).sum := by
  induction calls generalizing s with
  | nil => rfl
  | cons call rest ih =>
      rw [counted, List.map_cons, List.sum_cons]
      refine Nat.add_le_add ?_ (ih _)
      cases (r.step setting s call).1.isResult <;> simp

theorem counted_eq_iff (s : Session α) (calls : List (Call α)) :
    r.counted setting s calls = (calls.map (r.extra setting)).sum ↔
      ∀ call ∈ calls, ¬r.FailsToGather setting call := by
  induction calls generalizing s with
  | nil => simp [counted]
  | cons call rest ih =>
      have hle := counted_le setting r (r.step setting s call).2 rest
      rw [counted, List.map_cons, List.sum_cons, List.forall_mem_cons,
        ← ih (r.step setting s call).2, failsToGather_iff setting r s]
      cases (r.step setting s call).1.isResult with
      | true => simp
      | false =>
          simp only [cond_false, true_and]
          omega

/-- The session after some calls to a request on which no work has been done yet. -/
def session (across : Bool) (calls : List (Call α)) : Session α :=
  r.after setting (r.opened across) calls

/-- What every run of calls keeps to, whether they fail or not. -/
structure Lawful (across : Bool) (calls : List (Call α)) : Prop where
  planned : ∀ before call later, calls = before ++ call :: later →
    r.consults setting call = true → (r.session setting across before).state.queries = none →
    (r.session setting across (before ++ [call])).state.queries =
      (r.plan setting (r.session setting across before).state.acrossDateline).toOption
  stay : ∀ before later found, calls = before ++ later →
    (r.session setting across before).state.queries = some found →
    (r.step setting (r.session setting across calls) .queries).1 = .queries (.ok found)
  grows : ∀ before later, calls = before ++ later →
    (r.session setting across before).state.copiesMade ≤
      (r.session setting across calls).state.copiesMade
  shown : ∀ before transform g later rev, calls = before ++ .postProcess transform g :: later →
    (r.step setting (r.session setting across before) (.postProcess transform g)).1 =
      .revision (.ok rev) →
    ∃ shape whole made, g = some shape ∧
      r.copiesOf setting (.postProcess transform g) = .ok made ∧
      IsWhole setting r shape whole ∧ AreMoves r whole made ∧
      made.length ≤ 2 * r.cap.toNat + 1 ∧ gathered made = .ok (rev.applyTo shape) ∧
      (r.session setting across (before ++ [.postProcess transform g])).state.copiesMade =
        (r.session setting across before).state.copiesMade + (made.length - 1)
  independent : (∀ other, .splitAcross other ∉ calls) →
    ∀ before call later, calls = before ++ call :: later →
      (r.step setting (r.session setting across before) call).1 =
        (r.step setting (r.opened across) call).1

/-- Whether the copies counted in a run are those of the calls that come to a result. -/
structure CountsCopies (across : Bool) (calls : List (Call α)) : Prop where
  only : ∀ before call later, calls = before ++ call :: later →
    (r.session setting across (before ++ [call])).state.copiesMade ≠
      (r.session setting across before).state.copiesMade →
    ∃ transform g rev, call = .postProcess transform g ∧
      (r.step setting (r.session setting across before) call).1 = .revision (.ok rev)
  total : (r.session setting across calls).state.copiesMade =
    r.counted setting (r.opened across) calls

variable (across : Bool) (calls : List (Call α))

theorem session_append (before later : List (Call α)) :
    r.session setting across (before ++ later) =
      r.after setting (r.session setting across before) later :=
  after_append setting r _ before later

theorem copiesMade_session_concat (before : List (Call α)) (call : Call α) :
    (r.session setting across (before ++ [call])).state.copiesMade =
      (r.session setting across before).state.copiesMade + r.extra setting call := by
  rw [session_append, copiesMade_after, List.map_singleton, List.sum_singleton]

/-- Queries that were planned are given ever after, and planning that fails leaves nothing behind.
Copies that were counted stay counted; a geometry worked on with a result is shown as many times as
is counted for it, and one time more. Without a new choice, what a call comes to does not depend
on the calls before it. The count is that of the copies that are shown, unless a call fails to
gather copies that it has already counted. -/
theorem session_lawful : Lawful setting r across calls ∧
    (CountsCopies setting r across calls ↔ ∀ call ∈ calls, ¬r.FailsToGather setting call) := by
  have hstart := plannedAs_start setting r across
  refine ⟨⟨?planned, ?stay, ?grows, ?shown, ?independent⟩, ?counts⟩
  case planned =>
    rintro before call later - hconsults hnone
    rw [session_append]
    refine (congrArg State.queries (state_step setting r _ call)).trans ?_
    rw [hconsults, hnone]
    rfl
  case stay =>
    rintro before later found rfl hfound
    have hlast := queries_after setting r hfound later
    rw [← session_append] at hlast
    rw [step, outcome_queries_eq, hlast]
  case grows =>
    rintro before later rfl
    rw [session_append, copiesMade_after]
    exact Nat.le_add_right _ _
  case shown =>
    rintro before transform g later rev - hrev
    obtain ⟨shape, whole, made, hg, hmade, hwhole, hmoves, hle, hgathered⟩ :=
      exists_shown setting r (Answer.revision.inj hrev)
    refine ⟨shape, whole, made, hg, hmade, hwhole, hmoves, hle, hgathered, ?_⟩
    rw [copiesMade_session_concat, extra, hmade]
  case independent =>
    rintro hchoice before call later rfl
    refine (uniform_step setting r (fun other heq => hchoice other (by simp [heq]))
      (plannedAs_after setting r (fun other hmem => hchoice other ?_) hstart) hstart).1
    exact List.mem_append_left _ hmem
  case counts =>
    have htotal : (r.session setting across calls).state.copiesMade =
        (calls.map (r.extra setting)).sum := by
      rw [session, copiesMade_after]
      exact Nat.zero_add _
    rw [← counted_eq_iff setting r (r.opened across), ← htotal, eq_comm]
    refine ⟨fun hcounts => hcounts.total, fun heq => ⟨?_, heq⟩⟩
    rintro before call later rfl hchanged
    have hextra : 0 < r.extra setting call := by
      rw [copiesMade_session_concat] at hchanged
      omega
    rw [htotal, eq_comm, counted_eq_iff] at heq
    have hresult := (failsToGather_iff setting r (r.session setting across before) call).not.mp
      (heq call (by simp))
    exact exists_postProcess_of_extra setting r hextra (by simpa [hextra] using hresult)

/-- Two copies of a line beside an empty one are counted, and cannot be gathered. -/
theorem counts_copies_not_gathered :
    let crs := Crs.ofFrame Crs.Registry.wgs84
    let area : Envelope ℚ := ⟨150, -20, 540, 20, some crs⟩
    let same : Transform (Extended ℚ) :=
      .direct crs crs true ⟨fun x y => (x, y), fun _ _ => false, true⟩
    let setting : Setting (Extended ℚ) :=
      ⟨⟨fun _ _ => none⟩, ⟨fun _ => true, fun g _ => g, fun _ _ => true, fun _ _ => true⟩⟩
    let r := geographic area.finite crs crs 10 same
    let g : Geometry ℚ := .collection [.line [], .line [⟨175, 1, none⟩, ⟨176, 2, none⟩]]
    ¬CountsCopies setting r true [.postProcess none (some g.finite)] := by
  intro crs area same setting r g
  have hbounds : g.west = 175 ∧ g.east = 176 := by decide +kernel
  obtain ⟨ks, hoffsets, hshows⟩ : ∃ ks, visibleOffsets area.finite (.finite 180) 10 (.finite 175)
      (.finite 176) = .ok ks ∧ Shows area 180 10 175 176 ks := exists_visibleOffsets (by norm_num)
  have hboth : Shows area 180 10 175 176 [0, 1] := by
    refine ⟨by decide, fun k => ?_⟩
    rw [List.mem_pair]
    constructor
    · rintro (rfl | rfl) <;> norm_num [area]
    · rintro ⟨-, hlow, hhigh⟩
      have hlow : (-1 : ℚ) < k := by norm_num [area] at hlow; linarith
      have hhigh : (k : ℚ) < 2 := by norm_num [area] at hhigh; linarith
      norm_cast at hlow hhigh
      omega
  rw [hshows.eq hboth] at hoffsets
  have hmade : r.copiesOf setting (.postProcess none (some g.finite)) =
      [0, 1].mapM (copyAt (.finite 180) g.finite) := by
    have hbox : g.finite.bounds? = _ := bounds?_finite rfl
    rw [hbounds.1, hbounds.2] at hbox
    have hnot : visibleOnce area.finite (.finite 180) (.finite 175) (.finite 176) = false := by
      decide +kernel
    change r.copies setting none g.finite = _
    have hrepeats : Repeats r geographicCycle area 180 := repeats_geographic (by decide)
    unfold copies
    simp only [hbox, hrepeats.cycle_eq, hrepeats.radius_eq, hnot, Bool.false_eq_true, if_false,
      Option.map_none, Option.getD_none, Bool.false_and, copiesIn, hrepeats.area_eq]
    change visibleOffsets area.finite (.finite 180) 10 _ _ >>= _ = _
    rw [hoffsets]
    rfl
  have hfails : ([0, 1].mapM (copyAt (.finite 180) g.finite)).toOption.any
      (fun made => !(gathered made).isOk) = true := by decide +kernel
  rw [(session_lawful setting r true _).2]
  intro hgathers
  refine hgathers _ List.mem_cons_self ?_
  cases hcopies : ([0, 1].mapM (copyAt (.finite 180) g.finite) : Except _ _) with
  | error failure =>
      rw [hcopies] at hfails
      contradiction
  | ok made =>
      rw [hcopies] at hfails
      refine ⟨made, hmade.trans hcopies, fun result hresult => ?_⟩
      simp [Except.toOption, Except.isOk, Except.toBool, hresult] at hfails

end Antimeridian.Rendering
