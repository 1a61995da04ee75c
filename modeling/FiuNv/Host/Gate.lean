import FiuNv.Foundation.Run
import FiuNv.Host.SessionLaws

/-! # The session gate over whole runs

The flags of the gate are a summary of the frames accepted since the session
began. The run below keeps that list beside the session, and the invariant says
how the flags summarise it. Two kinds of frames escape the summary: a command 0
frame of a second non-zero type, and a command 2 frame of type 0 after one of
another type.
-/

namespace FiuNv

/-! ## Runs with the list of accepted frames -/

/-- The flags that the gate reads. -/
structure Gates where
  curCmd : Byte
  errorType : Int
  pinFlag : Nat → Byte
  cmd1 : Byte
  cmd2 : Byte
  type0 : Byte
  type0Cnt : Byte
  cmd3 : Byte

def Session.gates (s : Session) : Gates where
  curCmd := s.fiuCurCmd
  errorType := s.fiuCmd0CurErrorType
  pinFlag := s.fiuCmd0CurPinFlag
  cmd1 := s.fiuCmd1Flag
  cmd2 := s.fiuCmd2Flag
  type0 := s.fiuCmd2ErrorType0Flag
  type0Cnt := s.fiuCmd2ErrorType0Cnt
  cmd3 := s.fiuCmd3Flag

/-- The gate after `FIU_Cmd0_CurPinFlag_init`. -/
def Gates.init : Gates where
  curCmd := 255
  errorType := -1
  pinFlag := fun _ => 0
  cmd1 := 0
  cmd2 := 0
  type0 := 0
  type0Cnt := 0
  cmd3 := 0

/-- A session and the frames accepted since it began. -/
structure GateRun where
  session : Session
  accepted : List Frame

/-- What the host does to a session: it sends a configuration frame, completes
the session (command 5 answered pass) or resets it. -/
inductive SessionEvent where
  | config (f : Frame)
  | complete
  | reset

/-- One step. A rejected frame ends the session, as completion and reset do. -/
def gateStep (st : GateRun) : SessionEvent → GateRun
  | .config f =>
      if f.b0 ≤ 4 then
        if (configure st.session f).2 = gHostConfigPass then
          ⟨(configure st.session f).1, st.accepted ++ [f]⟩
        else ⟨(configure st.session f).1, []⟩
      else st
  | .complete => ⟨st.session.fiuCmd0CurPinFlagInit, []⟩
  | .reset => ⟨st.session.globalDataInit, []⟩

/-- The run starts at boot. -/
def GateRun.boot : GateRun := ⟨Session.boot, []⟩

/-! ## The property and its condition -/

/-- The accepted frames of one command. -/
def ofCmd (cmd : Byte) (accepted : List Frame) : List Frame :=
  accepted.filter fun f => f.b0 = cmd

/-- The accepted frames of command 2 with a non-zero type. -/
def leakOther (accepted : List Frame) : List Frame :=
  accepted.filter fun f => f.b0 = 2 ∧ f.b3 ≠ 0

/-- The accepted frames of command 2 with type 0. -/
def leakZero (accepted : List Frame) : List Frame :=
  accepted.filter fun f => f.b0 = 2 ∧ f.b3 = 0

/-- The pins of the accepted frames of command 0. -/
def pins (accepted : List Frame) : List Byte :=
  (ofCmd 0 accepted).map Frame.b2

/-- What the gate is for. -/
structure GateHolds (accepted : List Frame) : Prop where
  sameCommand : ∀ f ∈ accepted, ∀ g ∈ accepted, f.b0 ≤ 3 → g.b0 ≤ 3 → f.b0 = g.b0
  pins : (pins accepted).Nodup
  types : ∀ f ∈ accepted, ∀ g ∈ accepted, f.b0 = 0 → g.b0 = 0 → f.b3 ≠ 0 → g.b3 ≠ 0 → f.b3 = g.b3
  once1 : (ofCmd 1 accepted).length ≤ 1
  once3 : (ofCmd 3 accepted).length ≤ 1
  leak : ((leakOther accepted).length = 1 ∧ leakZero accepted = []) ∨
    (leakOther accepted = [] ∧ (leakZero accepted).length ≤ 2)

/-- A well-formed command 0 frame of a second non-zero type. -/
def MixesTypes (s : Session) (f : Frame) : Prop :=
  f.b0 = 0 ∧ f.b1 ≤ 16 ∧ f.b2 ≤ channumber ∧ 1 ≤ f.b3 ∧ f.b3 ≤ 4 ∧ f.b4 ≤ 1 ∧
    s.fiuCmd0CurErrorType ≠ -1 ∧ s.fiuCmd0CurErrorType ≠ f.b3.toNat

/-- A well-formed command 2 frame of type 0 after one of another type, which has
raised the flag of the command but not the counter of type 0. -/
def MixesKinds (s : Session) (f : Frame) : Prop :=
  f.b0 = 2 ∧ f.b1 ≤ 16 ∧ f.b2 ≤ channumber ∧ f.b3 = 0 ∧ f.b4 ≤ 1 ∧
    s.fiuCmd2Flag ≠ 0 ∧ s.fiuCmd2ErrorType0Cnt = 0

/-- The steps the gate copes with. -/
def GateCondition (st : GateRun) : SessionEvent → Prop
  | .config f => ¬ MixesTypes st.session f ∧ ¬ MixesKinds st.session f
  | .complete => True
  | .reset => True

/-! ## The invariant -/

/-- Command 0: the flagged pins are those of the accepted frames, and the
current type is that of its frames with a non-zero type. -/
structure Cmd0Inv (pinFlag : Nat → Byte) (errorType : Int) (accepted : List Frame) : Prop where
  pinFlag : ∀ p : Byte, pinFlag p.toNat = if p ∈ pins accepted then 1 else 0
  nodup : (pins accepted).Nodup
  type : ∀ f ∈ accepted, f.b0 = 0 → f.b3 ≠ 0 → errorType = f.b3.toNat
  typeFrom : errorType = -1 ∨ ∃ f ∈ accepted, f.b0 = 0 ∧ f.b3 ≠ 0 ∧ errorType = f.b3.toNat

/-- Commands 1 and 3: the flag counts the accepted frames. -/
def OnceInv (cmd flag : Byte) (accepted : List Frame) : Prop :=
  (flag = 0 ∧ ofCmd cmd accepted = []) ∨ (flag = 1 ∧ (ofCmd cmd accepted).length = 1)

/-- Command 2: nothing, one frame of another type, or one or two of type 0. -/
def LeakInv (cmd2 type0Cnt type0 : Byte) (accepted : List Frame) : Prop :=
  (cmd2 = 0 ∧ type0Cnt = 0 ∧ type0 = 0 ∧ leakOther accepted = [] ∧ leakZero accepted = []) ∨
    (cmd2 = 1 ∧ type0Cnt = 0 ∧ type0 = 0 ∧ (leakOther accepted).length = 1 ∧
      leakZero accepted = []) ∨
    (cmd2 = 1 ∧ type0Cnt = 1 ∧ type0 = 0 ∧ leakOther accepted = [] ∧
      (leakZero accepted).length = 1) ∨
    (cmd2 = 1 ∧ type0Cnt = 2 ∧ type0 = 1 ∧ leakOther accepted = [] ∧
      (leakZero accepted).length = 2)

/-- The flags summarise the accepted frames. -/
structure GateInv (g : Gates) (accepted : List Frame) : Prop where
  command : ∀ f ∈ accepted, f.b0 ≤ 3 → g.curCmd = f.b0
  cmd0 : Cmd0Inv g.pinFlag g.errorType accepted
  cmd1 : OnceInv 1 g.cmd1 accepted
  cmd2 : LeakInv g.cmd2 g.type0Cnt g.type0 accepted
  cmd3 : OnceInv 3 g.cmd3 accepted

theorem GateInv.init : GateInv Gates.init [] where
  command := by simp
  cmd0 := ⟨by simp [Gates.init, pins, ofCmd], by simp [pins, ofCmd], by simp, .inl rfl⟩
  cmd1 := .inl ⟨rfl, rfl⟩
  cmd2 := .inl ⟨rfl, rfl, rfl, rfl, rfl⟩
  cmd3 := .inl ⟨rfl, rfl⟩

theorem OnceInv.length_le {cmd flag : Byte} {accepted : List Frame}
    (hinv : OnceInv cmd flag accepted) : (ofCmd cmd accepted).length ≤ 1 := by
  rcases hinv with ⟨-, hnone⟩ | ⟨-, hone⟩
  · rw [hnone]
    exact Nat.zero_le 1
  · omega

theorem GateInv.holds {g : Gates} {accepted : List Frame} (hinv : GateInv g accepted) :
    GateHolds accepted where
  sameCommand := by
    intro f hf f' hf' hle hle'
    rw [← hinv.command f hf hle, ← hinv.command f' hf' hle']
  pins := hinv.cmd0.nodup
  types := by
    intro f hf f' hf' hcmd hcmd' htype htype'
    have heq := (hinv.cmd0.type f hf hcmd htype).symm.trans (hinv.cmd0.type f' hf' hcmd' htype')
    have hnat : f.b3.toNat = f'.b3.toNat := by exact_mod_cast heq
    exact BitVec.eq_of_toNat_eq hnat
  once1 := hinv.cmd1.length_le
  once3 := hinv.cmd3.length_le
  leak := by
    rcases hinv.cmd2 with ⟨-, -, -, ha, hb⟩ | ⟨-, -, -, ha, hb⟩ | ⟨-, -, -, ha, hb⟩ |
      ⟨-, -, -, ha, hb⟩
    · exact .inr ⟨ha, by simp [hb]⟩
    · exact .inl ⟨ha, hb⟩
    · exact .inr ⟨ha, by omega⟩
    · exact .inr ⟨ha, by omega⟩

/-! ## Appending a frame -/

theorem filter_snoc (p : Frame → Prop) [DecidablePred p] (accepted : List Frame) (f : Frame) :
    (accepted ++ [f]).filter (fun g => p g) =
      if p f then accepted.filter (fun g => p g) ++ [f] else accepted.filter (fun g => p g) := by
  rw [List.filter_append]
  split
  next hkept => simp [hkept]
  next hdropped => simp [hdropped]

theorem ofCmd_snoc (cmd : Byte) (accepted : List Frame) (f : Frame) :
    ofCmd cmd (accepted ++ [f]) =
      if f.b0 = cmd then ofCmd cmd accepted ++ [f] else ofCmd cmd accepted :=
  filter_snoc (fun g => g.b0 = cmd) accepted f

theorem pins_snoc (accepted : List Frame) (f : Frame) :
    pins (accepted ++ [f]) = if f.b0 = 0 then pins accepted ++ [f.b2] else pins accepted := by
  unfold pins
  rw [ofCmd_snoc]
  split <;> simp

theorem leakOther_snoc (accepted : List Frame) (f : Frame) :
    leakOther (accepted ++ [f]) =
      if f.b0 = 2 ∧ f.b3 ≠ 0 then leakOther accepted ++ [f] else leakOther accepted :=
  filter_snoc (fun g => g.b0 = 2 ∧ g.b3 ≠ 0) accepted f

theorem leakZero_snoc (accepted : List Frame) (f : Frame) :
    leakZero (accepted ++ [f]) =
      if f.b0 = 2 ∧ f.b3 = 0 then leakZero accepted ++ [f] else leakZero accepted :=
  filter_snoc (fun g => g.b0 = 2 ∧ g.b3 = 0) accepted f

theorem OnceInv.snoc_other {cmd flag : Byte} {accepted : List Frame}
    (hinv : OnceInv cmd flag accepted) {f : Frame} (hne : f.b0 ≠ cmd) :
    OnceInv cmd flag (accepted ++ [f]) := by
  unfold OnceInv
  rw [ofCmd_snoc, if_neg hne]
  exact hinv

/-- The first frame of its command raises the flag. -/
theorem OnceInv.snoc {cmd : Byte} {accepted : List Frame} (hinv : OnceInv cmd 0 accepted)
    {f : Frame} (hcmd : f.b0 = cmd) : OnceInv cmd 1 (accepted ++ [f]) := by
  have hnone : ofCmd cmd accepted = [] := by
    rcases hinv with ⟨-, hnone⟩ | ⟨hflag, -⟩
    · exact hnone
    · exact absurd hflag (by decide)
  refine .inr ⟨rfl, ?_⟩
  rw [ofCmd_snoc, if_pos hcmd, hnone]
  rfl

theorem LeakInv.snoc_other {cmd2 cnt type0 : Byte} {accepted : List Frame}
    (hinv : LeakInv cmd2 cnt type0 accepted) {f : Frame} (hne : f.b0 ≠ 2) :
    LeakInv cmd2 cnt type0 (accepted ++ [f]) := by
  unfold LeakInv
  rw [leakOther_snoc, leakZero_snoc, if_neg (fun h => hne h.1), if_neg (fun h => hne h.1)]
  exact hinv

theorem Cmd0Inv.snoc_other {pinFlag : Nat → Byte} {errorType : Int} {accepted : List Frame}
    (hinv : Cmd0Inv pinFlag errorType accepted) {f : Frame} (hne : f.b0 ≠ 0) :
    Cmd0Inv pinFlag errorType (accepted ++ [f]) := by
  have hpins : pins (accepted ++ [f]) = pins accepted := by rw [pins_snoc, if_neg hne]
  refine ⟨hpins ▸ hinv.pinFlag, hpins ▸ hinv.nodup, ?_, ?_⟩
  · intro g hg hcmd
    rcases List.mem_append.mp hg with hg | hg
    · exact hinv.type g hg hcmd
    · exact absurd (List.mem_singleton.mp hg ▸ hcmd) hne
  · rcases hinv.typeFrom with hnone | ⟨g, hg, hrest⟩
    · exact .inl hnone
    · exact .inr ⟨g, List.mem_append_left _ hg, hrest⟩

/-- A new pin is flagged. -/
theorem Cmd0Inv.snoc_pin {pinFlag : Nat → Byte} {errorType : Int} {accepted : List Frame}
    (hinv : Cmd0Inv pinFlag errorType accepted) {f : Frame} (hcmd : f.b0 = 0)
    (hfree : pinFlag f.b2.toNat ≠ 1) :
    (∀ p : Byte, Function.update pinFlag f.b2.toNat 1 p.toNat =
        if p ∈ pins (accepted ++ [f]) then 1 else 0) ∧
      (pins (accepted ++ [f])).Nodup := by
  have hnew : f.b2 ∉ pins accepted := by
    intro hmem
    exact hfree ((hinv.pinFlag f.b2).trans (if_pos hmem))
  rw [pins_snoc, if_pos hcmd]
  constructor
  · intro p
    by_cases hp : p = f.b2
    · simp [hp]
    · have hnat : p.toNat ≠ f.b2.toNat := fun h => hp (BitVec.eq_of_toNat_eq h)
      rw [Function.update_of_ne hnat, hinv.pinFlag p]
      simp [hp]
  · exact List.nodup_append.mpr ⟨hinv.nodup, by simp, by grind⟩

/-- A frame of type 0 flags its pin. -/
theorem Cmd0Inv.snoc_zero {pinFlag : Nat → Byte} {errorType : Int} {accepted : List Frame}
    (hinv : Cmd0Inv pinFlag errorType accepted) {f : Frame} (hcmd : f.b0 = 0) (htype : f.b3 = 0)
    (hfree : pinFlag f.b2.toNat ≠ 1) :
    Cmd0Inv (Function.update pinFlag f.b2.toNat 1) errorType (accepted ++ [f]) := by
  obtain ⟨hflag, hnodup⟩ := hinv.snoc_pin hcmd hfree
  refine ⟨hflag, hnodup, ?_, ?_⟩
  · intro g hg hcmd' htype'
    rcases List.mem_append.mp hg with hg | hg
    · exact hinv.type g hg hcmd' htype'
    · exact absurd (List.mem_singleton.mp hg ▸ htype) htype'
  · rcases hinv.typeFrom with hnone | ⟨g, hg, hrest⟩
    · exact .inl hnone
    · exact .inr ⟨g, List.mem_append_left _ hg, hrest⟩

/-- A frame of the current type, or of the first one, flags its pin and keeps or
sets the current type. -/
theorem Cmd0Inv.snoc_type {pinFlag : Nat → Byte} {errorType : Int} {accepted : List Frame}
    (hinv : Cmd0Inv pinFlag errorType accepted) {f : Frame} (hcmd : f.b0 = 0) (htype : f.b3 ≠ 0)
    (hcur : errorType = -1 ∨ errorType = f.b3.toNat) (hfree : pinFlag f.b2.toNat ≠ 1) :
    Cmd0Inv (Function.update pinFlag f.b2.toNat 1) f.b3.toNat (accepted ++ [f]) := by
  obtain ⟨hflag, hnodup⟩ := hinv.snoc_pin hcmd hfree
  refine ⟨hflag, hnodup, ?_, ?_⟩
  · intro g hg hcmd' htype'
    rcases List.mem_append.mp hg with hg | hg
    · have hg := hinv.type g hg hcmd' htype'
      rcases hcur with hnone | hsame
      · omega
      · rw [← hsame, hg]
    · rw [List.mem_singleton.mp hg]
  · exact .inr ⟨f, by simp, hcmd, htype, rfl⟩

theorem LeakInv.snoc_nonzero {cmd2 cnt type0 : Byte} {accepted : List Frame}
    (hinv : LeakInv cmd2 cnt type0 accepted) {f : Frame} (hcmd : f.b0 = 2) (htype : f.b3 ≠ 0)
    (hflag : cmd2 = 0) : LeakInv 1 cnt type0 (accepted ++ [f]) := by
  unfold LeakInv
  rw [leakOther_snoc, leakZero_snoc, if_pos ⟨hcmd, htype⟩, if_neg (fun h => htype h.2)]
  rcases hinv with ⟨-, hcnt, hzero, hother, hnone⟩ | ⟨hset, -⟩ | ⟨hset, -⟩ | ⟨hset, -⟩
  · exact .inr (.inl ⟨rfl, hcnt, hzero, by rw [hother]; rfl, hnone⟩)
  all_goals exact absurd (hset.symm.trans hflag) (by decide)

theorem LeakInv.snoc_zero {cmd2 cnt type0 : Byte} {accepted : List Frame}
    (hinv : LeakInv cmd2 cnt type0 accepted) {f : Frame} (hcmd : f.b0 = 2) (htype : f.b3 = 0)
    (hflag : type0 = 0) (hkind : ¬ (cmd2 ≠ 0 ∧ cnt = 0)) :
    LeakInv 1 (cnt + 1) (if cnt + 1 ≥ 2 then 1 else type0) (accepted ++ [f]) := by
  have hothers : leakOther (accepted ++ [f]) = leakOther accepted := by
    rw [leakOther_snoc, if_neg (fun h => h.2 htype)]
  have hzeros : leakZero (accepted ++ [f]) = leakZero accepted ++ [f] := by
    rw [leakZero_snoc, if_pos ⟨hcmd, htype⟩]
  unfold LeakInv
  rw [hothers, hzeros]
  rcases hinv with ⟨-, hcnt, hzero, hother, hnone⟩ | ⟨hset, hcnt, -⟩ |
    ⟨-, hcnt, hzero, hother, hone⟩ | ⟨-, -, hset, -⟩
  · subst hcnt
    exact .inr (.inr (.inl ⟨rfl, rfl, hzero, hother, by rw [hnone]; rfl⟩))
  · exact absurd ⟨by rw [hset]; decide, hcnt⟩ hkind
  · subst hcnt
    exact .inr (.inr (.inr ⟨rfl, rfl, rfl, hother, by simp [hone]⟩))
  · exact absurd (hset.symm.trans hflag) (by decide)

/-! ## One accepted frame -/

theorem foldl_apply_gates (calls : List PinCall) (s : Session) :
    (calls.foldl PinCall.apply s).gates = s.gates := by
  rw [foldl_apply_eq]
  rfl

/-- Entering a frame changes the gate only through the flags it raises. -/
theorem enter_gates (s : Session) (f : Frame) : (enter s f).gates = (raiseFlags s f).gates := by
  unfold enter
  split
  next hfour =>
    unfold enterCmd4
    split_ifs <;> rfl
  next hother => exact foldl_apply_gates _ _

theorem GateInv.command_snoc {g : Gates} {accepted : List Frame} (hinv : GateInv g accepted)
    {f : Frame} (hcur : g.curCmd = 255 ∨ g.curCmd = f.b0) :
    ∀ f' ∈ accepted ++ [f], f'.b0 ≤ 3 → f.b0 = f'.b0 := by
  intro f' hf' hle
  rcases List.mem_append.mp hf' with hf' | hf'
  · have heq := hinv.command f' hf' hle
    rcases hcur with hnone | hsame
    · bv_omega
    · rw [← hsame, heq]
  · rw [List.mem_singleton.mp hf']

/-- An admitted frame that mixes neither types nor kinds keeps the summary. -/
theorem GateInv.enter {s : Session} {accepted : List Frame} (hinv : GateInv s.gates accepted)
    {f : Frame} (hcmd : f.b0 ≤ 4) (hadmits : Admits s f) (htypes : ¬ MixesTypes s f)
    (hkinds : ¬ MixesKinds s f) : GateInv (enter s f).gates (accepted ++ [f]) := by
  obtain ⟨⟨hmode, hcur, h0, h1, h2, h3, -⟩, henters⟩ := hadmits
  have hcases : f.b0 = 0 ∨ f.b0 = 1 ∨ f.b0 = 2 ∨ f.b0 = 3 ∨ f.b0 = 4 := by bv_omega
  rw [enter_gates]
  rcases hcases with hb | hb | hb | hb | hb
  · obtain ⟨hpin, hrange, hfree0, hfree⟩ := h0 hb
    have hcommand := hinv.command_snoc (hcur (by rw [hb]; decide))
    have hcmd1 := hinv.cmd1.snoc_other (f := f) (by rw [hb]; decide)
    have hcmd2 := hinv.cmd2.snoc_other (f := f) (by rw [hb]; decide)
    have hcmd3 := hinv.cmd3.snoc_other (f := f) (by rw [hb]; decide)
    rw [raiseFlags, if_neg (by rw [hb]; decide), raiseCmd, if_pos hb]
    by_cases htype : f.b3 = 0
    · rw [if_pos htype]
      exact ⟨hcommand, hinv.cmd0.snoc_zero hb htype (hfree0 htype), hcmd1, hcmd2, hcmd3⟩
    · have hload := (henters.1 hb).2 htype
      have hsame : s.fiuCmd0CurErrorType = -1 ∨ s.fiuCmd0CurErrorType = f.b3.toNat := by
        by_contra hother
        exact htypes ⟨hb, hmode, hpin, by bv_omega, hrange, hload, fun h => hother (.inl h),
          fun h => hother (.inr h)⟩
      have hclear := hfree htype hsame
      rw [if_neg htype, if_pos hsame]
      refine ⟨hcommand, hinv.cmd0.snoc_type hb htype hsame ?_, hcmd1, hcmd2, hcmd3⟩
      intro hset
      exact absurd (hclear.symm.trans hset) (by decide)
  · have hflag := (h1 hb).2.2.2
    have hcmd1 := hinv.cmd1
    rw [show s.gates.cmd1 = 0 from hflag] at hcmd1
    rw [raiseFlags, if_neg (by rw [hb]; decide), raiseCmd, if_neg (by rw [hb]; decide), if_pos hb]
    exact ⟨hinv.command_snoc (hcur (by rw [hb]; decide)),
      hinv.cmd0.snoc_other (by rw [hb]; decide), hcmd1.snoc hb,
      hinv.cmd2.snoc_other (by rw [hb]; decide), hinv.cmd3.snoc_other (by rw [hb]; decide)⟩
  · obtain ⟨hpin, hload, -, hzero, hnonzero⟩ := h2 hb
    have hcommand := hinv.command_snoc (hcur (by rw [hb]; decide))
    have hcmd0 := hinv.cmd0.snoc_other (f := f) (by rw [hb]; decide)
    have hcmd1 := hinv.cmd1.snoc_other (f := f) (by rw [hb]; decide)
    have hcmd3 := hinv.cmd3.snoc_other (f := f) (by rw [hb]; decide)
    rw [raiseFlags, if_neg (by rw [hb]; decide), raiseCmd, if_neg (by rw [hb]; decide),
      if_neg (by rw [hb]; decide), if_pos hb]
    by_cases htype : f.b3 = 0
    · rw [if_pos htype]
      refine ⟨hcommand, hcmd0, hcmd1, hinv.cmd2.snoc_zero hb htype (hzero htype) ?_, hcmd3⟩
      rintro ⟨hset, hcnt⟩
      exact hkinds ⟨hb, hmode, hpin, htype, hload, hset, hcnt⟩
    · rw [if_neg htype]
      exact ⟨hcommand, hcmd0, hcmd1, hinv.cmd2.snoc_nonzero hb htype (hnonzero htype), hcmd3⟩
  · have htype := (henters.2.2.2 hb).1
    have hthree : f.b3 ≠ 3 := by bv_omega
    have hflag := ((h3 hb).2.2.1 hthree).2
    have hcmd3 := hinv.cmd3
    rw [show s.gates.cmd3 = 0 from hflag] at hcmd3
    rw [raiseFlags, if_neg (by rw [hb]; decide), raiseCmd, if_neg (by rw [hb]; decide),
      if_neg (by rw [hb]; decide), if_neg (by rw [hb]; decide), if_pos hb, if_neg hthree]
    exact ⟨hinv.command_snoc (hcur (by rw [hb]; decide)),
      hinv.cmd0.snoc_other (by rw [hb]; decide), hinv.cmd1.snoc_other (by rw [hb]; decide),
      hinv.cmd2.snoc_other (by rw [hb]; decide), hcmd3.snoc hb⟩
  · have hgates : (raiseFlags s f).gates = s.gates := by
      rw [raiseFlags, if_pos hb]
      split_ifs <;> rfl
    rw [hgates]
    refine ⟨?_, hinv.cmd0.snoc_other (by rw [hb]; decide),
      hinv.cmd1.snoc_other (by rw [hb]; decide), hinv.cmd2.snoc_other (by rw [hb]; decide),
      hinv.cmd3.snoc_other (by rw [hb]; decide)⟩
    intro f' hf' hle
    rcases List.mem_append.mp hf' with hf' | hf'
    · exact hinv.command f' hf' hle
    · rw [List.mem_singleton.mp hf', hb] at hle
      exact absurd hle (by decide)

/-! ## Runs -/

theorem gateStep_of_admits {st : GateRun} {f : Frame} (hcmd : f.b0 ≤ 4)
    (hadmits : Admits st.session f) :
    gateStep st (.config f) = ⟨enter st.session f, st.accepted ++ [f]⟩ := by
  rw [gateStep, if_pos hcmd, configure_of_admits hcmd hadmits, if_pos rfl]

theorem gateStep_of_not_admits {st : GateRun} {f : Frame} (hcmd : f.b0 ≤ 4)
    (hnot : ¬ Admits st.session f) :
    gateStep st (.config f) = ⟨st.session.globalDataInit, []⟩ := by
  obtain ⟨hsession, herror⟩ := configure_of_not_admits hcmd hnot
  rw [gateStep, if_pos hcmd, if_neg herror, hsession]

/-- Every step that meets the condition keeps the summary. -/
theorem gateInv_step (st : GateRun) (event : SessionEvent)
    (hinv : GateInv st.session.gates st.accepted) (hcond : GateCondition st event) :
    GateInv (gateStep st event).session.gates (gateStep st event).accepted := by
  cases event with
  | config f =>
      by_cases hcmd : f.b0 ≤ 4
      · by_cases hadmits : Admits st.session f
        · rw [gateStep_of_admits hcmd hadmits]
          exact hinv.enter hcmd hadmits hcond.1 hcond.2
        · rw [gateStep_of_not_admits hcmd hadmits]
          exact GateInv.init
      · rw [gateStep, if_neg hcmd]
        exact hinv
  | complete => exact GateInv.init
  | reset => exact GateInv.init

/-- A frame of a second non-zero type is admitted. -/
theorem admits_of_mixesTypes {s : Session} {accepted : List Frame}
    (hinv : GateInv s.gates accepted) {f : Frame} (hmixes : MixesTypes s f) :
    Admits s f ∧ ∃ g ∈ accepted, g.b0 = 0 ∧ g.b3 ≠ 0 ∧ g.b3 ≠ f.b3 := by
  obtain ⟨hb, hmode, hpin, hlow, hhigh, hload, hsome, hother⟩ := hmixes
  obtain ⟨g, hg, hgcmd, hgtype, hgcur⟩ := hinv.cmd0.typeFrom.resolve_left hsome
  have hcur : s.fiuCurCmd = g.b0 := hinv.command g hg (by bv_omega)
  have hne : g.b3 ≠ f.b3 := by
    intro heq
    exact hother (heq ▸ hgcur)
  refine ⟨⟨⟨hmode, fun _ => .inr (by rw [hcur, hgcmd, hb]), fun _ => ?_, ?_, ?_, ?_, ?_⟩, ?_⟩,
    g, hg, hgcmd, hgtype, hne⟩
  · refine ⟨hpin, hhigh, fun hzero => ?_, fun _ hcur => ?_⟩
    · bv_omega
    · rcases hcur with hnone | hsame
      · exact absurd hnone hsome
      · exact absurd hsame hother
  · intro h
    exact absurd (hb.symm.trans h) (by decide)
  · intro h
    exact absurd (hb.symm.trans h) (by decide)
  · intro h
    exact absurd (hb.symm.trans h) (by decide)
  · intro h
    exact absurd (hb.symm.trans h) (by decide)
  · unfold Enters
    grind

/-- A frame of type 0 after one of another type is admitted. -/
theorem admits_of_mixesKinds {s : Session} {accepted : List Frame}
    (hinv : GateInv s.gates accepted) {f : Frame} (hmixes : MixesKinds s f) :
    Admits s f ∧ leakOther accepted ≠ [] := by
  obtain ⟨hb, hmode, hpin, htype, hload, hset, hcnt⟩ := hmixes
  have hone : (leakOther accepted).length = 1 ∧ s.fiuCmd2ErrorType0Flag = 0 := by
    rcases hinv.cmd2 with ⟨hclear, -⟩ | ⟨-, -, hflag, hone, -⟩ | ⟨-, hcnt', -⟩ | ⟨-, hcnt', -⟩
    · exact absurd hclear hset
    · exact ⟨hone, hflag⟩
    · exact absurd (hcnt.symm.trans hcnt') (by decide)
    · exact absurd (hcnt.symm.trans hcnt') (by decide)
  have hne : leakOther accepted ≠ [] := by
    intro hnil
    rw [hnil] at hone
    exact absurd hone.1 (by decide)
  obtain ⟨g, hg⟩ := List.exists_mem_of_ne_nil _ hne
  have hg : g ∈ accepted ∧ g.b0 = 2 := by
    unfold leakOther at hg
    grind
  have hcur : s.fiuCurCmd = g.b0 := hinv.command g hg.1 (by bv_omega)
  refine ⟨⟨⟨hmode, fun _ => .inr (by rw [hcur, hg.2, hb]), ?_, ?_, fun _ => ?_, ?_, ?_⟩, ?_⟩, hne⟩
  · intro h
    exact absurd (hb.symm.trans h) (by decide)
  · intro h
    exact absurd (hb.symm.trans h) (by decide)
  · refine ⟨hpin, hload, fun hsix => ?_, fun _ => hone.2, fun h => absurd htype h⟩
    exact absurd (htype.symm.trans hsix) (by decide)
  · intro h
    exact absurd (hb.symm.trans h) (by decide)
  · intro h
    exact absurd (hb.symm.trans h) (by decide)
  · unfold Enters
    grind

/-- A step outside the condition breaks the property. -/
theorem not_gateHolds_step (st : GateRun) (event : SessionEvent)
    (hinv : GateInv st.session.gates st.accepted) (hcond : ¬ GateCondition st event) :
    ¬ GateHolds (gateStep st event).accepted := by
  intro hholds
  cases event with
  | config f =>
      by_cases htypes : MixesTypes st.session f
      · obtain ⟨hadmits, g, hg, hgcmd, hgtype, hne⟩ := admits_of_mixesTypes hinv htypes
        obtain ⟨hb, -, -, hlow, -⟩ := htypes
        rw [gateStep_of_admits (by bv_omega) hadmits] at hholds
        exact hne (hholds.types g (List.mem_append_left _ hg) f (by simp) hgcmd hb hgtype
          (by bv_omega))
      · have hkinds : MixesKinds st.session f := by
          by_contra hnot
          exact hcond ⟨htypes, hnot⟩
        obtain ⟨hadmits, hne⟩ := admits_of_mixesKinds hinv hkinds
        obtain ⟨hb, -, -, htype, -⟩ := hkinds
        rw [gateStep_of_admits (by bv_omega) hadmits] at hholds
        have hleak := hholds.leak
        rw [leakOther_snoc, leakZero_snoc] at hleak
        simp only [hb, htype, ne_eq, not_true_eq_false, and_false, and_true, if_false, if_true]
          at hleak
        rcases hleak with ⟨-, hnil⟩ | ⟨hnil, -⟩
        · simp at hnil
        · exact hne hnil
  | complete => exact hcond trivial
  | reset => exact hcond trivial

/-- Along any run of configuration frames, completions and resets from boot, the
gate holds in every state exactly when no step sends a well-formed frame that
mixes non-zero types in command 0 or follows another type by type 0 in
command 2. -/
theorem gateHolds_iff_no_mixing (events : List SessionEvent) :
    Run.EveryState gateStep (fun st => GateHolds st.accepted) GateRun.boot events ↔
      Run.EveryStep gateStep GateCondition GateRun.boot events := by
  have hboot : (fun st : GateRun => GateInv st.session.gates st.accepted) GateRun.boot :=
    GateInv.init
  exact Run.everyState_iff_everyStep gateInv_step (fun st hinv => hinv.holds) not_gateHolds_step
    hboot events

/-- Short to UbattA+ on pin 0, then short to UbattA- on pin 1: both accepted. -/
theorem gate_mixes_types :
    (Run.run gateStep GateRun.boot
      [.config ⟨0, 0, 0, 1, 0, 0, 0, 0⟩, .config ⟨0, 0, 1, 2, 0, 0, 0, 0⟩]).accepted =
        [⟨0, 0, 0, 1, 0, 0, 0, 0⟩, ⟨0, 0, 1, 2, 0, 0, 0, 0⟩] ∧
      ¬ Run.EveryState gateStep (fun st => GateHolds st.accepted) GateRun.boot
        [.config ⟨0, 0, 0, 1, 0, 0, 0, 0⟩, .config ⟨0, 0, 1, 2, 0, 0, 0, 0⟩] := by
  have haccepted : (Run.run gateStep GateRun.boot
      [.config ⟨0, 0, 0, 1, 0, 0, 0, 0⟩, .config ⟨0, 0, 1, 2, 0, 0, 0, 0⟩]).accepted =
        [⟨0, 0, 0, 1, 0, 0, 0, 0⟩, ⟨0, 0, 1, 2, 0, 0, 0, 0⟩] := by
    decide +kernel
  refine ⟨haccepted, fun hevery => ?_⟩
  have htypes := hevery.last.types
  rw [haccepted] at htypes
  revert htypes
  decide

end FiuNv
