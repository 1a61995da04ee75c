import FiuNv.Host.Encoding
import FiuNv.Host.Protocol
import FiuNv.Host.Registers

/-! # The order of the frames of a session

Every register call of a configuration frame sets a bit, except the one that clears
the load. So the channels, the type and the command that a session completes
depend on the frames it accepted and not on their order; only the load and the
resistance are those of the last frame that carries one.
-/

namespace FiuNv

/-! ## The register calls -/

/-- The only call of the branch that clears a bit is the one of the load. -/
def ClearsLoadOnly (branch : Branch) : Prop :=
  ∀ call ∈ branch.calls, call = .clrP1 12 ∨ call.write.2 = true

@[simp] theorem setP1_write (pin : Byte) : (PinCall.setP1 pin).write.2 = true := rfl

@[simp] theorem channelCall_write (limit pin : Byte) : (channelCall limit pin).write.2 = true := by
  unfold channelCall
  split <;> rfl

theorem clearsLoadOnly_of_sets {calls : List PinCall} {finish : Finish}
    (hsets : ∀ call ∈ calls, call.write.2 = true) : ClearsLoadOnly ⟨calls, finish⟩ :=
  fun call hmem => .inr (hsets call hmem)

theorem clearsLoadOnly_snoc {calls : List PinCall} {finish : Finish}
    (hsets : ∀ call ∈ calls, call.write.2 = true) :
    ClearsLoadOnly ⟨calls ++ [.clrP1 12], finish⟩ := by
  intro call hmem
  rcases List.mem_append.mp hmem with hmem | hmem
  · exact .inr (hsets call hmem)
  · exact .inl (List.mem_singleton.mp hmem)

theorem clearsLoadOnly_withLoad {calls : List PinCall} (load : Byte) (error : Nat)
    (hsets : ∀ call ∈ calls, call.write.2 = true) : ClearsLoadOnly (withLoad load error calls) := by
  unfold withLoad
  split_ifs
  · refine clearsLoadOnly_of_sets fun call hmem => ?_
    rcases List.mem_append.mp hmem with hmem | hmem
    · exact hsets call hmem
    · rw [List.mem_singleton.mp hmem]
      rfl
  · exact clearsLoadOnly_snoc hsets
  · exact clearsLoadOnly_of_sets hsets

theorem clearsLoadOnly_branchCmd0 (pin errorType load : Byte) :
    ClearsLoadOnly (branchCmd0 pin errorType load) := by
  unfold branchCmd0
  dsimp only
  split_ifs <;>
    first
      | exact clearsLoadOnly_withLoad _ _ (by simp)
      | exact clearsLoadOnly_of_sets (by simp)

theorem clearsLoadOnly_branchCmd1 (pin errorType load : Byte) :
    ClearsLoadOnly (branchCmd1 pin errorType load) := by
  unfold branchCmd1
  dsimp only
  split_ifs <;>
    first
      | exact clearsLoadOnly_withLoad _ _ (by simp)
      | exact clearsLoadOnly_of_sets (by simp)

theorem clearsLoadOnly_branchCmd2 (pin errorType load : Byte) :
    ClearsLoadOnly (branchCmd2 pin errorType load) := by
  unfold branchCmd2
  dsimp only
  split_ifs <;>
    first
      | exact clearsLoadOnly_withLoad _ _ (by simp)
      | exact @clearsLoadOnly_snoc [channelCall channumber pin, .setP1 8] _ (by simp)
      | exact clearsLoadOnly_of_sets (by simp)

theorem clearsLoadOnly_branchCmd3 (pin errorType load : Byte) :
    ClearsLoadOnly (branchCmd3 pin errorType load) := by
  unfold branchCmd3
  dsimp only
  split_ifs <;>
    first
      | exact clearsLoadOnly_withLoad _ _ (by simp)
      | exact clearsLoadOnly_of_sets (by simp)

theorem clearsLoadOnly_configBranch (f : Frame) : ClearsLoadOnly (configBranch f) := by
  unfold configBranch
  split_ifs
  · exact clearsLoadOnly_branchCmd0 _ _ _
  · exact clearsLoadOnly_branchCmd1 _ _ _
  · exact clearsLoadOnly_branchCmd2 _ _ _
  · exact clearsLoadOnly_branchCmd3 _ _ _

/-- The bits that frames only ever set: the channels and the type. -/
def Field.Cumulative : Field → Prop
  | p0 _ => True
  | p1 i => i ≠ 12
  | p4 _ => False

theorem frameWrites_sets {f : Frame} {write : Field × Bool} (hmem : write ∈ frameWrites f)
    (hfield : write.1.Cumulative) : write.2 = true := by
  unfold frameWrites at hmem
  split at hmem
  next =>
    split at hmem
    next =>
      obtain ⟨i, -, rfl⟩ := List.mem_map.mp hmem
      exact hfield.elim
    next => cases hmem
  next =>
    obtain ⟨call, hcall, hwrite⟩ := List.mem_flatMap.mp hmem
    unfold PinCall.writes at hwrite
    split at hwrite
    next =>
      rw [List.mem_singleton.mp hwrite] at hfield ⊢
      rcases clearsLoadOnly_configBranch f call hcall with rfl | hsets
      · exact absurd rfl hfield
      · exact hsets
    next => cases hwrite

/-! ## Sessions with the same frames -/

/-- A cumulative bit depends on which frames were entered only. -/
theorem foldl_enter_bit_congr {first second : List Frame} (hsame : ∀ f, f ∈ first ↔ f ∈ second)
    (s : Session) {field : Field} (hfield : field.Cumulative) :
    (first.foldl enter s).bit field = (second.foldl enter s).bit field := by
  have hwrites : ∀ write : Field × Bool,
      write ∈ first.flatMap frameWrites ↔ write ∈ second.flatMap frameWrites := by
    intro write
    simp only [List.mem_flatMap, hsame]
  have hsets : ∀ frames : List Frame, ∀ write ∈ frames.flatMap frameWrites, write.1 = field →
      write.2 = true := by
    intro frames write hmem heq
    obtain ⟨f, -, hwrite⟩ := List.mem_flatMap.mp hmem
    exact frameWrites_sets hwrite (heq ▸ hfield)
  rw [foldl_enter_bit, foldl_enter_bit]
  by_cases hwritten : ∃ write ∈ first.flatMap frameWrites, write.1 = field
  · obtain ⟨write, hmem, heq⟩ := hwritten
    rw [Writes.applyAll_of_const _ (hsets first) ⟨write, hmem, heq⟩,
      Writes.applyAll_of_const _ (hsets second) ⟨write, (hwrites write).mp hmem, heq⟩]
  · push Not at hwritten
    rw [Writes.applyAll_of_unwritten _ hwritten, Writes.applyAll_of_unwritten _ fun write hmem =>
      hwritten write ((hwrites write).mpr hmem)]

/-- The session after frames that are all answered pass. -/
theorem run_of_allPass {s : Session} {frames : List Frame} (hcmds : ∀ f ∈ frames, f.b0 ≤ 4)
    (hpass : AllPass s frames) : Run.run configureStep s frames = frames.foldl enter s := by
  induction frames generalizing s with
  | nil => rfl
  | cons f frames ih =>
      have hcmd := hcmds f List.mem_cons_self
      have hadmits : Admits s f := (configure_pass_iff hcmd).mp hpass.1
      have hstep : configureStep s f = enter s f := by
        rw [configureStep, configure_of_admits hcmd hadmits]
      have hrest := hpass.2
      rw [hstep] at hrest
      rw [Run.run_cons, hstep, List.foldl_cons]
      exact ih (fun g hmem => hcmds g (List.mem_cons_of_mem _ hmem)) hrest

/-- The flags after such frames summarise all of them. -/
theorem summary_of_allPass {s : Session} {before frames : List Frame} (hsummary : Summary s before)
    (hcmds : ∀ f ∈ frames, f.b0 ≤ 4) (hpass : AllPass s frames) :
    Summary (Run.run configureStep s frames) (before ++ frames) := by
  induction frames generalizing s before with
  | nil =>
      rw [List.append_nil]
      exact hsummary
  | cons f frames ih =>
      have hcmd := hcmds f List.mem_cons_self
      have hadmits : Admits s f := (configure_pass_iff hcmd).mp hpass.1
      have hstep := hsummary.configure hcmd
      rw [protocolStep, if_pos ((hsummary.admits_iff f).mp hadmits)] at hstep
      rw [Run.run_cons, List.append_cons]
      exact ih hstep (fun g hmem => hcmds g (List.mem_cons_of_mem _ hmem)) hpass.2

/-- Two sessions from boot that accept the same frames, in any order and any number of
times, complete the same command and channels, and a byte 12 that differs in the
load bit at most. -/
theorem completed_frame_unordered (first second : List Frame)
    (hcmds : ∀ f ∈ first, f.b0 ≤ 4) (hsame : ∀ f, f ∈ first ↔ f ∈ second)
    (hfirst : AllPass Session.boot first) (hsecond : AllPass Session.boot second) :
    let built := dataAtPxToFiuBytes17 (Run.run configureStep Session.boot first)
    let built' := dataAtPxToFiuBytes17 (Run.run configureStep Session.boot second)
    (∀ i < 12, built i = built' i) ∧ ∀ j ≠ 4, (built 12).getLsbD j = (built' 12).getLsbD j := by
  have hcmds' : ∀ f ∈ second, f.b0 ≤ 4 := fun f hmem => hcmds f ((hsame f).mpr hmem)
  have hboot : Summary Session.boot [] := Summary.init _
  have hcurrent := (summary_of_allPass hboot hcmds hfirst).current
  have hcurrent' := (summary_of_allPass hboot hcmds' hsecond).current
  have hcommand : (Run.run configureStep Session.boot first).fiuCurCmd =
      (Run.run configureStep Session.boot second).fiuCurCmd := by
    by_cases hidle : ∀ f ∈ first, f.b0 = 4
    · rw [hcurrent.idle hidle, hcurrent'.idle fun f hmem => hidle f ((hsame f).mpr hmem)]
    · push Not at hidle
      obtain ⟨f, hmem, hne⟩ := hidle
      rw [hcurrent.set f hmem hne, hcurrent'.set f ((hsame f).mp hmem) hne]
  have hbit : ∀ field : Field, field.Cumulative →
      (Run.run configureStep Session.boot first).bit field =
        (Run.run configureStep Session.boot second).bit field := by
    intro field hfield
    rw [run_of_allPass hcmds hfirst, run_of_allPass hcmds' hsecond]
    exact foldl_enter_bit_congr hsame Session.boot hfield
  set s := Run.run configureStep Session.boot first
  set s' := Run.run configureStep Session.boot second
  have hp0 := (extractLsb_eq_iff s.p0 s'.p0 8).mpr fun i _ => hbit (.p0 i) trivial
  have hp1 := (extractLsb_eq_iff s.p1 s'.p1 1).mpr fun i hi =>
    hbit (.p1 i) (show i ≠ 12 by omega)
  refine ⟨fun i hi => ?_, fun j hj => ?_⟩
  · match i with
    | 0 | 1 => rfl
    | 2 => exact hcommand
    | 3 => exact hp0 0 (by decide)
    | 4 => exact hp0 1 (by decide)
    | 5 => exact hp0 2 (by decide)
    | 6 => exact hp0 3 (by decide)
    | 7 => exact hp0 4 (by decide)
    | 8 => exact hp0 5 (by decide)
    | 9 => exact hp0 6 (by decide)
    | 10 => exact hp0 7 (by decide)
    | 11 => exact hp1 0 (by decide)
    | i + 12 => omega
  · have hp1bit : s.p1.getLsbD (8 + j) = s'.p1.getLsbD (8 + j) :=
      hbit (.p1 (8 + j)) (show 8 + j ≠ 12 by omega)
    simp only [dataAtPxToFiuBytes17, BitVec.getLsbD_extractLsb', hp1bit]

/-- Three pins opened in two orders. -/
theorem completed_frame_of_three_pins :
    let built := fun pins : List Byte => dataAtPxToFiuBytes17 (Run.run configureStep Session.boot
      (pins.map fun pin => ⟨0, 0, pin, 1, 1, 0, 0, 0⟩))
    ∀ i < 12, built [1, 9, 30] i = built [30, 1, 9] i := by
  refine (completed_frame_unordered _ _ (by simp) (by simp; tauto) ?_ ?_).1
  · exact ⟨by decide +kernel, by decide +kernel, by decide +kernel, trivial⟩
  · exact ⟨by decide +kernel, by decide +kernel, by decide +kernel, trivial⟩

end FiuNv
