import BindingSynthesis.Proofs.BatchProtocol
import BindingSynthesis.Sink.SourceTree

/-!
# BindingSynthesis.Proofs.PlanWriting

How a plan is written, call by call, on a machine of any kind.

1. Files are written in order, up to the first write that fails
   (`writing_writeAll`).
2. A plan is kept by making its directory and writing its files, and the answer is
   the fault of the call that failed or the paths of all files (`keeping_persist`).
-/

namespace BindingSynthesis.Sink

open Batch

variable {σ : Type}

/-- Files are written one after the other, up to the first write that fails. -/
inductive Writing (machine : Machine (StateM σ)) :
    List (Path × String) → σ → Except MachineFault Unit → σ → Prop where
  | nil (s : σ) : Writing machine [] s (.ok ()) s
  | failed {path : Path} {text : String} {more : List (Path × String)} {s s' : σ}
    {fault : MachineFault} (hwrite : (machine.writeText path text).run s = (.error fault, s')) :
    Writing machine ((path, text) :: more) s (.error fault) s'
  | cons {path : Path} {text : String} {more : List (Path × String)} {s s₁ s₂ : σ}
    {answer : Except MachineFault Unit}
    (hwrite : (machine.writeText path text).run s = (.ok (), s₁))
    (hmore : Writing machine more s₁ answer s₂) :
    Writing machine ((path, text) :: more) s answer s₂

/-- The directory of a plan is made, then its files are written. -/
inductive Keeping (machine : Machine (StateM σ)) (e : EmissionOptions) (r : Request) (p : Plan) :
    σ → Except SinkError (List Path) → σ → Prop where
  | notMade {s s' : σ} {fault : MachineFault}
    (hmake : (machine.createDirectories (packageDirectory r p)).run s = (.error fault, s')) :
    Keeping machine e r p s (.error ⟨fault⟩) s'
  | notWritten {s s₁ s₂ : σ} {fault : MachineFault}
    (hmake : (machine.createDirectories (packageDirectory r p)).run s = (.ok (), s₁))
    (hwriting : Writing machine (files e r p) s₁ (.error fault) s₂) :
    Keeping machine e r p s (.error ⟨fault⟩) s₂
  | kept {s s₁ s₂ : σ}
    (hmake : (machine.createDirectories (packageDirectory r p)).run s = (.ok (), s₁))
    (hwriting : Writing machine (files e r p) s₁ (.ok ()) s₂) :
    Keeping machine e r p s (.ok ((files e r p).map Prod.fst)) s₂

variable {machine : Machine (StateM σ)} {s s' : σ}

theorem writing_writeAll {xs : List (Path × String)} {answer : Except MachineFault Unit}
    (hrun : (writeAll machine xs).run s = (answer, s')) : Writing machine xs s answer s' := by
  induction xs generalizing s with
  | nil =>
      cases hrun
      exact .nil _
  | cons x xs ih =>
      obtain ⟨path, text⟩ := x
      obtain ⟨written, s₁, hwrite⟩ : ∃ written s₁,
          (machine.writeText path text).run s = (written, s₁) := ⟨_, _, rfl⟩
      rw [writeAll, run_bind_eq hwrite] at hrun
      cases written with
      | error fault =>
          cases hrun
          exact .failed hwrite
      | ok done => exact .cons hwrite (ih hrun)

/-- **What keeping a plan can do**: it fails to make the directory, fails to write a
file, or writes them all. -/
theorem keeping_persist {e : EmissionOptions} {r : Request} {p : Plan}
    {answer : Except SinkError (List Path)}
    (hrun : ((sourceTree machine e).persist r p).run s = (answer, s')) :
    Keeping machine e r p s answer s' := by
  change (writePlan machine e r p).run s = _ at hrun
  obtain ⟨made, s₁, hmake⟩ : ∃ made s₁,
      (machine.createDirectories (packageDirectory r p)).run s = (made, s₁) := ⟨_, _, rfl⟩
  rw [writePlan, run_bind_eq hmake] at hrun
  cases made with
  | error fault =>
      cases hrun
      exact .notMade hmake
  | ok done =>
      obtain ⟨written, s₂, hwrite⟩ : ∃ written s₂,
          (writeAll machine (files e r p)).run s₁ = (written, s₂) := ⟨_, _, rfl⟩
      dsimp only at hrun
      rw [run_bind_eq hwrite] at hrun
      cases written with
      | error fault =>
          cases hrun
          exact .notWritten hmake (writing_writeAll hwrite)
      | ok done =>
          cases hrun
          exact .kept hmake (writing_writeAll hwrite)

end BindingSynthesis.Sink
