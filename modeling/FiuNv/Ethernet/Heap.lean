import FiuNv.Ethernet.Memory
import FiuNv.Foundation.Run
import Mathlib.Data.List.Pairwise

/-! # The internal pool as a heap

The clients of `malloc.c` know a block by its address and expect its bytes to stay as
they wrote them. Here the pool with its bytes runs next to a list of live
allocations, each with the bytes its client has written, and the two are related
in every state: the blocks lie apart inside the pool, the bytes are kept, also
across `myrealloc`, and a request is met whenever there is a gap for it.
-/

namespace FiuNv

open BlockPool MemPool

/-! ## The pool with its bytes -/

structure Heap where
  pool : MemPool
  membase : Nat → Byte

/-- `mymemcpy`, which copies from the first byte on. -/
def mymemcpy (mem : Nat → Byte) (des src n : Nat) : Nat → Byte :=
  (List.range n).foldl (fun mem i => Function.update mem (des + i) (mem (src + i))) mem

namespace Heap

/-- `mymalloc`. -/
def mymalloc (heap : Heap) (size : Nat) : Option Nat × Heap :=
  ((heap.pool.mymalloc size).1, { heap with pool := (heap.pool.mymalloc size).2 })

/-- `myfree`. -/
def myfree (heap : Heap) (ptr : Option Nat) : Heap := { heap with pool := heap.pool.myfree ptr }

/-- `myrealloc` of a block. It copies as many bytes as the new block has. -/
def myrealloc (heap : Heap) (ptr size : Nat) : Option Nat × Heap :=
  match (heap.pool.myMemMalloc size).1 with
  | none => (none, { heap with pool := (heap.pool.myMemMalloc size).2 })
  | some offset =>
      (some offset,
        { pool := (heap.pool.myMemMalloc size).2.myfree (some ptr)
          membase := mymemcpy heap.membase offset ptr size })

/-- `my_mem_perused`. -/
def myMemPerused (heap : Heap) : BitVec 16 :=
  BitVec.ofNat 16 (used heap.pool.memmap memtblsize * 1000 / memtblsize)

end Heap

/-! ## Clients -/

/-- A block that a client has, with the bytes it has written. -/
structure Allocation where
  ptr : Nat
  size : Nat
  data : Nat → Option Byte

/-- The first block of an allocation and the number of its blocks. -/
def Allocation.blocks (a : Allocation) : Nat × Nat := (a.ptr / memblksize, blockCount a.size)

/-- The two share no byte. -/
def Allocation.Apart (a b : Allocation) : Prop :=
  a.ptr + a.size ≤ b.ptr ∨ b.ptr + b.size ≤ a.ptr

instance : Std.Symm Allocation.Apart := ⟨fun _ _ hapart => hapart.symm⟩

/-- The pool, and what the clients have of it. -/
structure Clients where
  heap : Heap
  live : List Allocation

inductive HeapEvent where
  | malloc (size : Nat)
  | free (ptr : Nat)
  | realloc (ptr size : Nat)
  | write (ptr i : Nat) (value : Byte)

namespace Clients

/-- The other allocations. -/
def others (c : Clients) (ptr : Nat) : List Allocation := c.live.filter fun a => a.ptr ≠ ptr

/-- What a client may expect after a reallocation: the bytes of the old block. -/
def carried (c : Clients) (ptr i : Nat) : Option Byte :=
  (c.live.find? fun a => a.ptr = ptr).bind fun a => if i < a.size then a.data i else none

def step (c : Clients) : HeapEvent → Clients
  | .malloc size =>
      { heap := (c.heap.mymalloc size).2
        live := match (c.heap.mymalloc size).1 with
          | some ptr => c.live ++ [⟨ptr, size, fun _ => none⟩]
          | none => c.live }
  | .free ptr => { heap := c.heap.myfree (some ptr), live := c.others ptr }
  | .realloc ptr size =>
      { heap := (c.heap.myrealloc ptr size).2
        live := match (c.heap.myrealloc ptr size).1 with
          | some new => c.others ptr ++ [⟨new, size, c.carried ptr⟩]
          | none => c.live }
  | .write ptr i value =>
      { heap := { c.heap with membase := Function.update c.heap.membase (ptr + i) value }
        live := c.live.map fun a =>
          if a.ptr = ptr then { a with data := Function.update a.data i (some value) } else a }

def boot (membase : Nat → Byte) : Clients :=
  ⟨⟨⟨false, fun _ => 0, fun _ => rfl⟩, membase⟩, []⟩

/-- Clients pass pointers of live allocations and write inside them. -/
def Proper (c : Clients) : HeapEvent → Prop
  | .malloc _ => True
  | .free ptr => ∃ a ∈ c.live, a.ptr = ptr
  | .realloc ptr _ => ∃ a ∈ c.live, a.ptr = ptr
  | .write ptr i _ => ∃ a ∈ c.live, a.ptr = ptr ∧ i < a.size

/-- What the clients may rely on. -/
structure Sound (c : Clients) : Prop where
  inside : ∀ a ∈ c.live, 0 < a.size ∧ a.ptr % 64 = 0 ∧ a.ptr + a.size ≤ memsize
  apart : c.live.Pairwise Allocation.Apart
  kept : ∀ a ∈ c.live, ∀ i < a.size, ∀ value, a.data i = some value →
    c.heap.membase (a.ptr + i) = value
  served : ∀ size, (c.heap.mymalloc size).1.isSome = true ↔
    size ≠ 0 ∧ ∃ start, start + blockCount size ≤ memtblsize ∧
      ∀ a ∈ c.live, a.blocks.1 + a.blocks.2 ≤ start ∨ start + blockCount size ≤ a.blocks.1
  perused : c.heap.myMemPerused.toNat =
    (c.live.map fun a => blockCount a.size).sum * 1000 / memtblsize

end Clients

/-! ## Copies -/

/-- A byte that is not read after it is written arrives. -/
theorem mymemcpy_spec (mem : Nat → Byte) (des src n : Nat) :
    (∀ a, (∀ j < n, a ≠ des + j) → mymemcpy mem des src n a = mem a) ∧
      ∀ i < n, (∀ j < n, src + i ≠ des + j) → mymemcpy mem des src n (des + i) = mem (src + i) := by
  refine Run.foldl_range_induct
    (motive := fun k (mem' : Nat → Byte) => (∀ a, (∀ j < n, a ≠ des + j) → mem' a = mem a) ∧
      ∀ i < k, (∀ j < n, src + i ≠ des + j) → mem' (des + i) = mem (src + i))
    ⟨fun _ _ => rfl, fun i hi => absurd hi (Nat.not_lt_zero i)⟩ ?_
  intro k hk mem' hmem'
  obtain ⟨houtside, hcopied⟩ := hmem'
  refine ⟨fun a ha => ?_, fun i hi hclear => ?_⟩
  · rw [Function.update_of_ne (ha k hk)]
    exact houtside a ha
  · rcases Nat.lt_succ_iff_lt_or_eq.mp hi with hi | rfl
    · rw [Function.update_of_ne (by omega)]
      exact hcopied i hi hclear
    · rw [Function.update_self]
      exact houtside _ hclear

/-! ## The invariant -/

structure HeapInv (c : Clients) : Prop where
  holds : Holds (fun _ => 0) c.heap.pool.memmap (c.live.map Allocation.blocks)
  aligned : ∀ a ∈ c.live, a.size ≠ 0 ∧ a.ptr % 64 = 0 ∧ a.blocks.1 + a.blocks.2 ≤ memtblsize
  kept : ∀ a ∈ c.live, ∀ i < a.size, ∀ value, a.data i = some value →
    c.heap.membase (a.ptr + i) = value
  ready : c.live ≠ [] → c.heap.pool.memrdy = true

theorem size_le_blocks (size : Nat) : size ≤ 64 * blockCount size := by
  unfold blockCount memblksize
  split <;> omega

/-- Blocks that lie apart have their bytes apart. -/
theorem bytes_apart {a b : Allocation} (ha : a.ptr % 64 = 0) (hb : b.ptr % 64 = 0)
    (hblocks : a.blocks.1 + a.blocks.2 ≤ b.blocks.1) : a.ptr + a.size ≤ b.ptr := by
  have hsize := size_le_blocks a.size
  unfold Allocation.blocks memblksize at hblocks
  dsimp only at hblocks
  omega

namespace HeapInv

variable {c : Clients}

theorem apart (hinv : HeapInv c) : c.live.Pairwise Allocation.Apart := by
  refine (List.pairwise_map.mp hinv.holds.apart).imp_of_mem fun ha hb hblocks => ?_
  have hleft := (hinv.aligned _ ha).2.1
  have hright := (hinv.aligned _ hb).2.1
  exact hblocks.imp (bytes_apart hleft hright) (bytes_apart hright hleft)

/-- An allocation is known by its address. -/
theorem eq_of_ptr (hinv : HeapInv c) {a b : Allocation} (ha : a ∈ c.live) (hb : b ∈ c.live)
    (hptr : a.ptr = b.ptr) : a = b := by
  by_contra hne
  have hleft := (hinv.aligned a ha).1
  have hright := (hinv.aligned b hb).1
  have hapart := hinv.apart.forall ha hb hne
  unfold Allocation.Apart at hapart
  omega

theorem find_eq (hinv : HeapInv c) {a : Allocation} (ha : a ∈ c.live) :
    (c.live.find? fun b => b.ptr = a.ptr) = some a := by
  cases hfind : c.live.find? fun b => b.ptr = a.ptr with
  | none =>
      have hnone := List.find?_eq_none.mp hfind a ha
      simp at hnone
  | some b =>
      have hb := List.mem_of_find?_eq_some hfind
      have hptr : b.ptr = a.ptr := by simpa using List.find?_some hfind
      rw [hinv.eq_of_ptr hb ha hptr]

theorem perm_others (hinv : HeapInv c) {a : Allocation} (ha : a ∈ c.live) :
    c.live.Perm (a :: c.others a.ptr) := by
  obtain ⟨before, after, hlive⟩ := List.append_of_mem ha
  have hapart := hinv.apart
  rw [hlive, List.pairwise_append] at hapart
  obtain ⟨-, hafter, hbefore⟩ := hapart
  have hsize := (hinv.aligned a ha).1
  have hpos : ∀ b ∈ c.live, b.size ≠ 0 := fun b hb => (hinv.aligned b hb).1
  -- the others have other addresses
  have hkeep : ∀ b ∈ c.live, b.Apart a → decide (b.ptr ≠ a.ptr) = true := by
    intro b hb hab
    have hsize' := hpos b hb
    unfold Allocation.Apart at hab
    exact decide_eq_true (by omega)
  have hothers : c.others a.ptr = before ++ after := by
    rw [Clients.others, hlive, List.filter_append, List.filter_cons_of_neg (by simp)]
    congr 1
    · refine List.filter_eq_self.mpr fun b hb => hkeep b ?_ (hbefore b hb a List.mem_cons_self)
      rw [hlive]
      exact List.mem_append_left _ hb
    · refine List.filter_eq_self.mpr fun b hb => hkeep b ?_ ?_
      · rw [hlive]
        exact List.mem_append_right _ (List.mem_cons_of_mem _ hb)
      · exact ((List.pairwise_cons.mp hafter).1 b hb).symm
  rw [hothers, hlive]
  exact List.perm_middle

theorem mem_of_mem_others {a : Allocation} {ptr : Nat} (hmem : a ∈ c.others ptr) :
    a ∈ c.live ∧ a.ptr ≠ ptr := by
  obtain ⟨hlive, hptr⟩ := List.mem_filter.mp hmem
  exact ⟨hlive, of_decide_eq_true hptr⟩

/-- The release of a live allocation. -/
theorem myfree_eq (hinv : HeapInv c) {a : Allocation} (ha : a ∈ c.live) {pool : MemPool}
    (hready : pool.memrdy = true) :
    pool.myfree (some a.ptr) = withMap (release pool.memmap a.blocks.1) := by
  obtain ⟨hsize, haligned, hinside⟩ := hinv.aligned a ha
  have hpos := blockCount_pos hsize
  have hlt : a.ptr < memsize := by
    unfold Allocation.blocks memblksize memtblsize at hinside
    dsimp only at hinside
    unfold memsize
    omega
  rw [MemPool.myfree, myMemFree, if_pos hready, if_pos hlt]
  rfl

end HeapInv

/-! ## Steps -/

theorem heapInv_boot (membase : Nat → Byte) : HeapInv (Clients.boot membase) :=
  ⟨Holds.refl _, fun _ hmem => absurd hmem List.not_mem_nil,
    fun _ hmem => absurd hmem List.not_mem_nil, fun hne => absurd rfl hne⟩

/-- A request that is met gives blocks that nobody has. -/
theorem HeapInv.allocated {c : Clients} (hinv : HeapInv c) {size start : Nat} (hsize : size ≠ 0)
    (hrun : FreeRun c.heap.pool.memmap memtblsize start (blockCount size)) {pool : MemPool}
    (htable : pool.memmap = mark c.heap.pool.memmap start (blockCount size) (blockCount size))
    (hready : pool.memrdy = true) :
    HeapInv
      ⟨{ c.heap with pool := pool }, c.live ++ [⟨start * memblksize, size, fun _ => none⟩]⟩ := by
  have hblocks : (⟨start * memblksize, size, fun _ => none⟩ : Allocation).blocks =
      (start, blockCount size) := by
    rw [Allocation.blocks, Nat.mul_div_cancel _ (by decide)]
  refine ⟨?_, fun a hmem => ?_, fun a hmem i hi value hvalue => ?_, fun _ => hready⟩
  · dsimp only
    rw [htable, List.map_append, List.map_singleton, hblocks]
    exact hinv.holds.alloc (blockCount_pos hsize) hrun
  · rcases List.mem_append.mp hmem with hmem | hmem
    · exact hinv.aligned a hmem
    · rw [List.mem_singleton.mp hmem, hblocks]
      exact ⟨hsize, Nat.mul_mod_left _ _, hrun.inside⟩
  · rcases List.mem_append.mp hmem with hmem | hmem
    · exact hinv.kept a hmem i hi value hvalue
    · rw [List.mem_singleton.mp hmem] at hvalue
      cases hvalue

theorem heapInv_malloc {c : Clients} (hinv : HeapInv c) (size : Nat) :
    HeapInv (c.step (.malloc size)) := by
  have hready := c.heap.pool.mymalloc_memrdy size
  rcases c.heap.pool.mymalloc_cases size with
    ⟨start, hrun, hsize, hpointer, htable⟩ | ⟨-, hpointer, htable⟩
  · simp only [Clients.step, Heap.mymalloc, hpointer]
    exact hinv.allocated hsize hrun htable hready
  · simp only [Clients.step, Heap.mymalloc, hpointer]
    refine ⟨?_, hinv.aligned, hinv.kept, fun _ => hready⟩
    dsimp only
    rw [htable]
    exact hinv.holds

theorem heapInv_free {c : Clients} (hinv : HeapInv c) {a : Allocation} (ha : a ∈ c.live) :
    HeapInv (c.step (.free a.ptr)) := by
  have hready := hinv.ready (List.ne_nil_of_mem ha)
  simp only [Clients.step, Heap.myfree, hinv.myfree_eq ha hready]
  refine ⟨?_, fun b hmem => ?_, fun b hmem => ?_, fun _ => rfl⟩
  · exact (hinv.holds.perm ((hinv.perm_others ha).map Allocation.blocks)).release
  · exact hinv.aligned b (HeapInv.mem_of_mem_others hmem).1
  · exact hinv.kept b (HeapInv.mem_of_mem_others hmem).1

/-- A reallocation takes the new block, frees the old one and brings its bytes over. -/
theorem heapInv_realloc {c : Clients} (hinv : HeapInv c) {a : Allocation} (ha : a ∈ c.live)
    (size : Nat) : HeapInv (c.step (.realloc a.ptr size)) := by
  have hready : (c.heap.pool.myMemMalloc size).2.memrdy = true :=
    c.heap.pool.mymalloc_memrdy size
  rcases c.heap.pool.mymalloc_cases size with
    ⟨start, hrun, hsize, hpointer, htable⟩ | ⟨-, hpointer, htable⟩
  · have hresult : c.heap.myrealloc a.ptr size = (some (start * memblksize),
        ⟨(c.heap.pool.myMemMalloc size).2.myfree (some a.ptr),
          mymemcpy c.heap.membase (start * memblksize) a.ptr size⟩) := by
      rw [Heap.myrealloc, show (c.heap.pool.myMemMalloc size).1 = _ from hpointer]
    set new : Allocation := ⟨start * memblksize, size, fun _ => none⟩
    have htaken : HeapInv ⟨{ c.heap with pool := (c.heap.pool.myMemMalloc size).2 },
        c.live ++ [new]⟩ := hinv.allocated hsize hrun htable hready
    have hapart : ∀ b ∈ c.live, b.Apart new := by
      intro b hb
      exact (List.pairwise_append.mp htaken.apart).2.2 b hb new (List.mem_singleton_self new)
    have hother : new.ptr ≠ a.ptr := by
      have hab := hapart a ha
      have hpos := (hinv.aligned a ha).1
      have hpos' : new.size ≠ 0 := hsize
      unfold Allocation.Apart at hab
      omega
    have hfreed := heapInv_free htaken (List.mem_append_left _ ha)
    simp only [Clients.step, Clients.others, List.filter_append, Heap.myfree] at hfreed
    rw [List.filter_cons_of_pos (by simpa using hother), List.filter_nil] at hfreed
    simp only [Clients.step, hresult, Clients.others]
    obtain ⟨houtside, hcopied⟩ := mymemcpy_spec c.heap.membase (start * memblksize) a.ptr size
    have hclear : ∀ b ∈ c.live, ∀ i < b.size, ∀ j < size,
        b.ptr + i ≠ start * memblksize + j := by
      intro b hb i hi j hj heq
      have hab : b.ptr + b.size ≤ start * memblksize ∨ start * memblksize + size ≤ b.ptr :=
        hapart b hb
      omega
    refine ⟨?_, fun b hmem => ?_, fun b hmem i hi value hvalue => ?_, fun _ => ?_⟩
    · have hholds := hfreed.holds
      rw [List.map_append] at hholds ⊢
      exact hholds
    · rcases List.mem_append.mp hmem with hmem | hmem
      · exact hfreed.aligned b (List.mem_append_left _ hmem)
      · rw [List.mem_singleton.mp hmem]
        exact hfreed.aligned new (List.mem_append_right _ (List.mem_singleton_self new))
    · rcases List.mem_append.mp hmem with hmem | hmem
      · have hlive := (HeapInv.mem_of_mem_others hmem).1
        dsimp only
        rw [houtside _ (hclear b hlive i hi)]
        exact hinv.kept b hlive i hi value hvalue
      · rw [List.mem_singleton.mp hmem] at hi hvalue ⊢
        simp only [Clients.carried, hinv.find_eq ha, Option.bind_some] at hvalue
        split at hvalue
        next hold =>
          dsimp only at hi ⊢
          rw [hcopied i hi (hclear a ha i hold)]
          exact hinv.kept a ha i hold value hvalue
        next => cases hvalue
    · exact hfreed.ready (by simp)
  · have hresult : c.heap.myrealloc a.ptr size =
        (none, { c.heap with pool := (c.heap.pool.myMemMalloc size).2 }) := by
      rw [Heap.myrealloc, show (c.heap.pool.myMemMalloc size).1 = _ from hpointer]
    simp only [Clients.step, hresult]
    refine ⟨?_, hinv.aligned, hinv.kept, fun _ => hready⟩
    dsimp only
    rw [show (c.heap.pool.myMemMalloc size).2.memmap = _ from htable]
    exact hinv.holds

theorem heapInv_write {c : Clients} (hinv : HeapInv c) {a : Allocation} (ha : a ∈ c.live) {i : Nat}
    (hi : i < a.size) (value : Byte) : HeapInv (c.step (.write a.ptr i value)) := by
  set written : Allocation → Allocation := fun b =>
    if b.ptr = a.ptr then { b with data := Function.update b.data i (some value) } else b
  have hsame : ∀ b, (written b).ptr = b.ptr ∧ (written b).size = b.size := by
    intro b
    simp only [written]
    split <;> exact ⟨rfl, rfl⟩
  have hblocks : ∀ b, (written b).blocks = b.blocks := by
    intro b
    rw [Allocation.blocks, Allocation.blocks, (hsame b).1, (hsame b).2]
  refine ⟨?_, fun b hmem => ?_, fun b hmem j hj byte hbyte => ?_, fun hne => ?_⟩
  · change Holds (fun _ => 0) c.heap.pool.memmap ((c.live.map written).map Allocation.blocks)
    have hmap : (c.live.map written).map Allocation.blocks = c.live.map Allocation.blocks := by
      rw [List.map_map]
      exact List.map_congr_left fun b _ => hblocks b
    rw [hmap]
    exact hinv.holds
  · obtain ⟨b, hlive, rfl⟩ := List.mem_map.mp hmem
    rw [hblocks, (hsame b).1, (hsame b).2]
    exact hinv.aligned b hlive
  · obtain ⟨b, hlive, rfl⟩ := List.mem_map.mp hmem
    rw [(hsame b).2] at hj
    rw [(hsame b).1]
    change Function.update c.heap.membase (a.ptr + i) value (b.ptr + j) = byte
    by_cases hptr : b.ptr = a.ptr
    · obtain rfl := hinv.eq_of_ptr hlive ha hptr
      simp only [if_pos] at hbyte
      by_cases hij : j = i
      · subst hij
        rw [Function.update_self] at hbyte ⊢
        exact Option.some.inj hbyte
      · rw [Function.update_of_ne hij] at hbyte
        rw [Function.update_of_ne (by omega)]
        exact hinv.kept b hlive j hj byte hbyte
    · have hapart := hinv.apart.forall hlive ha fun heq => hptr (congrArg _ heq)
      unfold Allocation.Apart at hapart
      simp only [if_neg hptr] at hbyte
      rw [Function.update_of_ne (by omega)]
      exact hinv.kept b hlive j hj byte hbyte
  · exact hinv.ready fun hnil => hne (by rw [Clients.step, hnil]; rfl)

theorem heapInv_step {c : Clients} {event : HeapEvent} (hinv : HeapInv c)
    (hproper : c.Proper event) : HeapInv (c.step event) := by
  cases event with
  | malloc size => exact heapInv_malloc hinv size
  | free ptr =>
      obtain ⟨a, ha, rfl⟩ := hproper
      exact heapInv_free hinv ha
  | realloc ptr size =>
      obtain ⟨a, ha, rfl⟩ := hproper
      exact heapInv_realloc hinv ha size
  | write ptr i value =>
      obtain ⟨a, ha, rfl, hi⟩ := hproper
      exact heapInv_write hinv ha hi value

/-! ## Runs -/

theorem HeapInv.served {c : Clients} (hinv : HeapInv c) (size : Nat) :
    (c.heap.mymalloc size).1.isSome = true ↔
      size ≠ 0 ∧ ∃ start, start + blockCount size ≤ memtblsize ∧
        ∀ a ∈ c.live, a.blocks.1 + a.blocks.2 ≤ start ∨ start + blockCount size ≤ a.blocks.1 := by
  have hgap : size ≠ 0 → ∀ start, FreeRun c.heap.pool.memmap memtblsize start (blockCount size) ↔
      start + blockCount size ≤ memtblsize ∧
        ∀ a ∈ c.live, a.blocks.1 + a.blocks.2 ≤ start ∨
          start + blockCount size ≤ a.blocks.1 := by
    intro hsize start
    rw [hinv.holds.freeRun_iff (blockCount_pos hsize), List.forall_mem_map]
  rcases c.heap.pool.mymalloc_cases size with
    ⟨start, hrun, hsize, hpointer, -⟩ | ⟨hnone, hpointer, -⟩
  · rw [Heap.mymalloc, hpointer]
    exact ⟨fun _ => ⟨hsize, start, (hgap hsize start).mp hrun⟩, fun _ => rfl⟩
  · rw [Heap.mymalloc, hpointer]
    refine ⟨fun hsome => (nomatch hsome), ?_⟩
    rintro ⟨hsize, start, hfits⟩
    exact absurd ⟨start, (hgap hsize start).mpr hfits⟩ (hnone.resolve_left hsize)

theorem HeapInv.perused {c : Clients} (hinv : HeapInv c) :
    c.heap.myMemPerused.toNat =
      (c.live.map fun a => blockCount a.size).sum * 1000 / memtblsize := by
  have hused : used c.heap.pool.memmap memtblsize =
      (c.live.map fun a => blockCount a.size).sum := by
    rw [hinv.holds.used_eq, List.map_map]
    · rfl
    · exact List.forall_mem_map.mpr fun a hmem => (hinv.aligned a hmem).2.2
  have hle : used c.heap.pool.memmap memtblsize ≤ memtblsize := by
    have hlength : used c.heap.pool.memmap memtblsize ≤ (List.range memtblsize).length :=
      List.countP_le_length
    rwa [List.length_range] at hlength
  rw [Heap.myMemPerused, BitVec.toNat_ofNat, ← hused]
  unfold memtblsize at hle ⊢
  omega

theorem HeapInv.sound {c : Clients} (hinv : HeapInv c) : c.Sound where
  inside a hmem := by
    obtain ⟨hsize, haligned, hinside⟩ := hinv.aligned a hmem
    have hle := size_le_blocks a.size
    unfold Allocation.blocks memblksize memtblsize at hinside
    dsimp only at hinside
    unfold memsize
    omega
  apart := hinv.apart
  kept := hinv.kept
  served := hinv.served
  perused := hinv.perused

/-- In every state of every run in which the clients keep to their blocks, the live
allocations lie apart inside the pool, every byte that was written is still there,
also after reallocations, a request is met exactly when there is a gap for it, and
the reported use is that of the live allocations. -/
theorem heap_sound (membase : Nat → Byte) (events : List HeapEvent)
    (hproper : Run.EveryStep Clients.step Clients.Proper (Clients.boot membase) events) :
    Run.EveryState Clients.step Clients.Sound (Clients.boot membase) events := by
  have hinv := Run.EveryState.of_invariant (fun _ _ => heapInv_step) (heapInv_boot membase) hproper
  exact hinv.mono fun _ hinv => hinv.sound

/-- A block that is written, enlarged and freed again. -/
theorem heap_sound_enlarged :
    Run.EveryState Clients.step Clients.Sound (Clients.boot fun _ => 0)
      [.malloc 100, .write 102272 3 7, .realloc 102272 300, .free 101952] := by
  refine heap_sound _ _ ⟨trivial, ?_, ?_, ?_, trivial⟩
  · exact ⟨_, List.mem_singleton_self _, by decide +kernel, by decide +kernel⟩
  · exact ⟨_, List.mem_singleton_self _, by decide +kernel⟩
  · exact ⟨_, List.mem_singleton_self _, by decide +kernel⟩

end FiuNv
