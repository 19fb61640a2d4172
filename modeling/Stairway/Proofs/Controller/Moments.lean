import Stairway.Proofs.Controller.Attendance
import Stairway.Proofs.Controller.Maps

/-!
# Moments of a run with a close

A moment of a run is a schedule up to some instant: some calls have returned, a last one may be
under way. A `Finale` is what may follow it, a close whose caller may still wait. At every moment a
schedule is ready for the next call (`Ready.upTo`) and after a finale it is still in order
(`Ready.finale`), where what a body has to meet may depend on its number.
-/

namespace Stairway.Schedule

variable {I : Interface} {S σ τ : Type} [Machine I σ] [Machine I τ] {P : Protocol I S}
  {link : S → σ → Prop} {spec : Body I → S → Outcome (Except Failure Unit) → S → Prop}
    {s₀ : S} {e : Engine I}
  {issued : List (Body I)} {x : Schedule I σ} {f : σ → τ}

/-- Bodies end in the order of their issue. -/
theorem Orderly.serials (h : Orderly P link spec s₀ issued x) :
    x.endings.map (·.serial) = List.range x.endings.length := by
  have hserved : ∃ ended rest s, issued = ended ++ rest ∧ Served spec s₀ ended x.endings s := by
    have hfollows := h.follows
    cases hfollows with
    | free _ served _ => exact ⟨_, _, _, rfl, served⟩
    | held _ served _ _ _ => exact ⟨_, _, _, rfl, served⟩
  obtain ⟨ended, rest, s, rfl, hserved⟩ := hserved
  have hlength : x.endings.length = ended.length := by
    simpa using congrArg List.length hserved.serials
  rw [hserved.serials, h.numbered.front, hlength]

/-! ## Finales -/

/-- What may follow a moment of a run: nothing, a close whose caller may still wait, or a close that
has returned, and how much later it is. -/
inductive Finale where
  | unclosed
  | closing (since : Option Duration)
  | closed (expiry : Option Instant) (since : Option Duration)

/-- The bodies that have been issued up to then. -/
def Finale.jobs (w : Moment) : Finale → List (Option Errand)
  | unclosed => w.errands.map some
  | closing _ | closed _ _ => w.errands.map some ++ [none]

theorem Finale.jobs_at {w : Moment} {k : Nat} {errand : Errand} (c : Finale)
    (h : w.errands[k]? = some errand) : (c.jobs w)[k]? = some (some errand) := by
  have hjob : (w.errands.map some)[k]? = some (some errand) := by simp [h]
  cases c with
  | unclosed => exact hjob
  | _ => exact (List.getElem?_append_left (List.getElem?_eq_some_iff.1 hjob).1).trans hjob

/-- The schedule after a finale. -/
def finale (e : Engine I) (isBenign : String → Bool) (x : Schedule I σ) : Finale → Schedule I σ
  | .unclosed => x
  | .closing since => (x.issueClose e.announceClose (e.closing isBenign)).2.rest since
  | .closed expiry since => (x.close e isBenign expiry).2.rest since

/-! ## Maps -/

theorem upTo_map (hf : Machine.Commutes I f) (e : Engine I) (w : Moment) (x : Schedule I σ) :
    (x.map f).upTo e w = (x.upTo e w).map f := by
  unfold upTo
  rw [follow_map hf]
  rcases w.underWay with _ | errand
  · exact rest_map hf w.since _
  · simp only [begin]
    rw [rest_map hf]
    exact rest_map hf w.since
      (((x.follow e w.returned).2.rest errand.pause).issue errand.deadline (errand.program e)).2

theorem finale_map (hf : Machine.Commutes I f) (e : Engine I) (isBenign : String → Bool)
    (x : Schedule I σ) (c : Finale) :
    (x.map f).finale e isBenign c = (x.finale e isBenign c).map f := by
  cases c with
  | unclosed => rfl
  | closing since => exact rest_map hf since (x.issueClose e.announceClose (e.closing isBenign)).2
  | closed expiry since =>
    simp only [finale]
    rw [close_map hf, rest_map hf]

/-! ## What holds at every moment -/

/-- At every moment a schedule is ready for the next call, if each body meets what is asked of its
number. -/
theorem Ready.upTo (hP : P.Governs link) (w : Moment) (h : Ready P link spec s₀ [] x)
    (hmeets : ∀ k (errand : Errand), w.errands[k]? = some errand → Meets P spec (errand.body e k)) :
    ∃ bodies, bodies.length = w.errands.length ∧ Ready P link spec s₀ bodies (x.upTo e w) := by
  have hreturned : ∀ k (errand : Errand), w.returned[k]? = some errand →
      Meets P spec (errand.body e (([] : List (Body I)).length + k)) := by
    intro k errand hk
    rw [List.length_nil, Nat.zero_add]
    refine hmeets k errand ?_
    rw [Moment.errands, List.getElem?_append_left (List.getElem?_eq_some_iff.1 hk).1, hk]
  obtain ⟨bodies, htold, hready, -⟩ := h.follow_numbered hP w.returned hreturned
  have hlength : bodies.length = w.returned.length := by
    simpa using congrArg List.length htold.programs
  rw [List.nil_append] at hready
  unfold Schedule.upTo
  unfold Moment.errands at hmeets ⊢
  generalize w.underWay = underWay at hmeets ⊢
  rcases underWay with _ | errand
  · exact ⟨bodies, by simpa using hlength, hready.rest hP w.since⟩
  · have hlast := hmeets bodies.length errand (by simp [hlength])
    exact ⟨_, by simp [hlength], ((hready.rest hP errand.pause).issue hlast).rest hP w.since⟩

theorem Orderly.rest (hP : P.Governs link) (pause : Option Duration)
    (h : Orderly P link spec s₀ issued x) :
    Orderly P link spec s₀ issued (x.rest pause) := by
  cases pause with
  | none => exact h
  | some d => exact h.elapseTo hP _

/-- After a finale a schedule is still in order. -/
theorem Ready.finale (hP : P.Governs link) (h : Ready P link spec s₀ issued x)
    (isBenign : String → Bool) (hquiet : Discreet link e.announceClose)
    (hb : Meets P spec ⟨issued.length, none, fun _ => e.closing isBenign⟩) (w : Moment) (c : Finale)
    (hw : issued.length = w.errands.length) : ∃ bodies, bodies.length = (c.jobs w).length ∧
      Orderly P link spec s₀ bodies (x.finale e isBenign c) := by
  have hissued := h.issueClose hquiet hb
  cases c with
  | unclosed => exact ⟨issued, by simpa [Finale.jobs] using hw, h.toOrderly⟩
  | closing since => exact ⟨_, by simp [Finale.jobs, hw], hissued.rest hP since⟩
  | closed expiry since =>
    refine ⟨issued ++
      [⟨issued.length, none, fun _ => e.closing isBenign⟩], by simp [Finale.jobs, hw], ?_⟩
    have hcall : x.close e isBenign expiry =
        (x.issueClose e.announceClose (e.closing isBenign)).2.await issued.length expiry :=
      congrArg (Schedule.await _ · expiry) h.next
    refine Orderly.rest hP since ?_
    rw [hcall]
    obtain heq | ⟨bound, t, heq⟩ :=
      await_snd (x.issueClose e.announceClose (e.closing isBenign)).2 issued.length expiry
    · rw [heq]
      exact hissued
    · rw [heq]
      exact (hissued.advance hP bound).at_ t

end Stairway.Schedule
