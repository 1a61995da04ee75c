import FiuNv.Foundation.BlockPool
import FiuNv.Host.Frame

/-! # Memory of the Ethernet driver and of lwIP

`EthMemAlloc` takes eight blocks from the internal pool, four for the driver and
four for lwIP. The failure tests of the driver's four look at the addresses of the
pointer variables and not at the pointers, so they never fail, and the clean-up
behind them never runs.
-/

namespace FiuNv

open BlockPool

/-! ## The allocator -/

/-- `memtblsize[SRAMIN]`. -/
def memtblsize : Nat := 100 * 1024 / 64

/-- `memblksize[SRAMIN]`. -/
def memblksize : Nat := 64

/-- `memsize[SRAMIN]`. -/
def memsize : Nat := 100 * 1024

/-- The `SRAMIN` part of `mallco_dev`. The table is linked as zeros and is written only
once the pool is ready. -/
structure MemPool where
  memrdy : Bool
  memmap : Table
  zeroed : memrdy = false → memmap = fun _ => 0

namespace MemPool

/-- The pool, ready, with a new table. -/
def withMap (memmap : Table) : MemPool := ⟨true, memmap, fun h => by cases h⟩

/-- `my_mem_init`. -/
def myMemInit : MemPool := withMap fun _ => 0

/-- The initialisation on first use. -/
def ready (pool : MemPool) : MemPool := if pool.memrdy then pool else myMemInit

/-- `nmemb` of `my_mem_malloc`. -/
def blockCount (size : Nat) : Nat :=
  size / memblksize + if size % memblksize ≠ 0 then 1 else 0

/-- `my_mem_malloc`. The result is the offset in bytes, or none for `0XFFFFFFFF`. -/
def myMemMalloc (pool : MemPool) (size : Nat) : Option Nat × MemPool :=
  let pool := pool.ready
  if size = 0 then (none, pool)
  else
    let found := alloc pool.memmap memtblsize (blockCount size)
    (found.1.map (· * memblksize), withMap found.2)

/-- `my_mem_free`. -/
def myMemFree (pool : MemPool) (offset : Nat) : MemPool :=
  if pool.memrdy then
    if offset < memsize then withMap (release pool.memmap (offset / memblksize)) else pool
  else myMemInit

/-- `mymalloc`. A pointer is its offset into the pool, which is never at address 0, and
`NULL` is none. -/
def mymalloc (pool : MemPool) (size : Nat) : Option Nat × MemPool := pool.myMemMalloc size

/-- `myfree`. -/
def myfree (pool : MemPool) : Option Nat → MemPool
  | none => pool
  | some offset => pool.myMemFree offset

end MemPool

/-! ## The eight blocks -/

/-- The pool and the eight pointer variables. -/
structure EthMemory where
  pool : MemPool
  dmaRxDscrTab : Option Nat
  dmaTxDscrTab : Option Nat
  rxBuff : Option Nat
  txBuff : Option Nat
  mempMemory : Option Nat
  ramHeap : Option Nat
  tcpipThreadTaskStk : Option Nat
  lwipDhcpTaskStk : Option Nat

/-- The sizes in `ETH_Mem_Malloc`: `ETH_RXBUFNB` and `ETH_TXBUFNB` descriptors of 32 bytes,
and as many buffers of `ETH_RX_BUF_SIZE` and `ETH_TX_BUF_SIZE`. -/
def ethSizes : List Nat := [10 * 32, 5 * 32, 1524 * 10, 1524 * 5]

/-- The sizes in `lwip_comm_mem_malloc`: what `memp_get_memorysize` gives, the heap of
`MEM_SIZE` bytes with two headers, and the two stacks in words. -/
def lwipSizes (mempsize : Nat) : List Nat :=
  [mempsize, 16000 + 2 * (4 * 3) + 4, 2048 * 4, 128 * 4]

namespace EthMemory

/-- `ETH_Mem_Free`. -/
def ethMemFree (m : EthMemory) : EthMemory :=
  { m with
    pool := (((m.pool.myfree m.dmaRxDscrTab).myfree m.dmaTxDscrTab).myfree m.rxBuff).myfree
      m.txBuff }

/-- The test `!(u32)&DMARxDscrTab||!(u32)&DMATxDscrTab||!(u32)&Rx_Buff||!(u32)&Tx_Buff`, which
occurs twice. It looks at the addresses of four variables, and none is 0. -/
def variableAtZero : Bool := false

/-- The four requests of the driver. -/
def ethRequested (m : EthMemory) : EthMemory :=
  let rxTab := m.pool.mymalloc (10 * 32)
  let txTab := rxTab.2.mymalloc (5 * 32)
  let rx := txTab.2.mymalloc (1524 * 10)
  let tx := rx.2.mymalloc (1524 * 5)
  { m with
    pool := tx.2
    dmaRxDscrTab := rxTab.1
    dmaTxDscrTab := txTab.1
    rxBuff := rx.1
    txBuff := tx.1 }

/-- `ETH_Mem_Malloc`. -/
def ethMemMalloc (m : EthMemory) : Byte × EthMemory :=
  let m := m.ethRequested
  if variableAtZero then (1, m.ethMemFree) else (0, m)

/-- `lwip_comm_mem_free`. -/
def lwipCommMemFree (m : EthMemory) : EthMemory :=
  { m with
    pool := (((m.pool.myfree m.mempMemory).myfree m.ramHeap).myfree
      m.tcpipThreadTaskStk).myfree m.lwipDhcpTaskStk }

/-- The four requests of lwIP. -/
def lwipRequested (m : EthMemory) (mempsize : Nat) : EthMemory :=
  let memp := m.pool.mymalloc mempsize
  let heap := memp.2.mymalloc (16000 + 2 * (4 * 3) + 4)
  let tcpip := heap.2.mymalloc (2048 * 4)
  let dhcp := tcpip.2.mymalloc (128 * 4)
  { m with
    pool := dhcp.2
    mempMemory := memp.1
    ramHeap := heap.1
    tcpipThreadTaskStk := tcpip.1
    lwipDhcpTaskStk := dhcp.1 }

/-- The failure test of lwIP's four pointers. -/
def lwipFailed (m : EthMemory) : Bool :=
  m.mempMemory.isNone || m.ramHeap.isNone || m.tcpipThreadTaskStk.isNone ||
    m.lwipDhcpTaskStk.isNone

/-- `lwip_comm_mem_malloc`. -/
def lwipCommMemMalloc (m : EthMemory) (mempsize : Nat) : Byte × EthMemory :=
  let m := m.lwipRequested mempsize
  if m.lwipFailed then (1, m.lwipCommMemFree) else (0, m)

/-- `EthMemAlloc`. The default IP settings do not concern the memory. -/
def ethMemAlloc (m : EthMemory) (mempsize : Nat) : Byte × EthMemory :=
  let eth := m.ethMemMalloc
  if eth.1 ≠ 0 then (1, eth.2)
  else
    let lwip := eth.2.lwipCommMemMalloc mempsize
    if lwip.1 ≠ 0 then (2, if variableAtZero then lwip.2.ethMemFree else lwip.2)
    else (0, lwip.2)

/-- The eight pointers. -/
def pointers (m : EthMemory) : List (Option Nat) :=
  [m.dmaRxDscrTab, m.dmaTxDscrTab, m.rxBuff, m.txBuff, m.mempMemory, m.ramHeap,
    m.tcpipThreadTaskStk, m.lwipDhcpTaskStk]

/-- The result 0 comes with eight blocks, any other with the table as it was. -/
structure AllOrNothing (before : EthMemory) (result : Byte × EthMemory) : Prop where
  all : result.1 = 0 → ∀ pointer ∈ result.2.pointers, pointer.isSome = true
  nothing : result.1 ≠ 0 →
    ∀ i < memtblsize, result.2.pool.memmap i = before.pool.memmap i

end EthMemory

/-! ## Requests in turn -/

namespace MemPool

/-- Requests made one after the other. -/
def mallocAll (pool : MemPool) : List Nat → List (Option Nat) × MemPool
  | [] => ([], pool)
  | size :: sizes =>
      let first := pool.mymalloc size
      let rest := first.2.mallocAll sizes
      (first.1 :: rest.1, rest.2)

/-- Every one of the requests is met. -/
def Serves (pool : MemPool) (sizes : List Nat) : Prop :=
  ∀ pointer ∈ (pool.mallocAll sizes).1, pointer.isSome = true

instance (pool : MemPool) (sizes : List Nat) : Decidable (pool.Serves sizes) :=
  inferInstanceAs (Decidable (∀ _ ∈ _, _))

@[simp] theorem ready_memmap (pool : MemPool) : pool.ready.memmap = pool.memmap := by
  unfold ready
  split
  next => rfl
  next hnot =>
    rw [Bool.not_eq_true] at hnot
    exact (pool.zeroed hnot).symm

theorem blockCount_pos {size : Nat} (hsize : size ≠ 0) : 0 < blockCount size := by
  unfold blockCount memblksize
  split <;> omega

/-- A request marks the blocks it finds, or changes nothing. -/
theorem mymalloc_cases (pool : MemPool) (size : Nat) :
    (∃ start, FreeRun pool.memmap memtblsize start (blockCount size) ∧ size ≠ 0 ∧
        (pool.mymalloc size).1 = some (start * memblksize) ∧
        (pool.mymalloc size).2.memmap =
          mark pool.memmap start (blockCount size) (blockCount size)) ∨
      ((size = 0 ∨ ¬ ∃ start, FreeRun pool.memmap memtblsize start (blockCount size)) ∧
        (pool.mymalloc size).1 = none ∧ (pool.mymalloc size).2.memmap = pool.memmap) := by
  unfold mymalloc myMemMalloc
  dsimp only
  by_cases hzero : size = 0
  · rw [if_pos hzero]
    exact .inr ⟨.inl hzero, rfl, pool.ready_memmap⟩
  · rw [if_neg hzero, ready_memmap]
    rcases alloc_cases pool.memmap memtblsize (blockCount_pos hzero) with
      ⟨start, hrun, halloc⟩ | ⟨hnone, halloc⟩
    · rw [halloc]
      exact .inl ⟨start, hrun, hzero, rfl, rfl⟩
    · rw [halloc]
      exact .inr ⟨.inr hnone, rfl, rfl⟩

theorem mymalloc_memrdy (pool : MemPool) (size : Nat) : (pool.mymalloc size).2.memrdy = true := by
  unfold mymalloc myMemMalloc
  dsimp only
  split
  next =>
    unfold ready
    split
    next hready => exact hready
    next => rfl
  next => rfl

theorem grows_mymalloc (pool : MemPool) (size : Nat) :
    Grows pool.memmap (pool.mymalloc size).2.memmap := by
  rcases pool.mymalloc_cases size with ⟨start, hrun, -, -, htable⟩ | ⟨-, -, htable⟩
  · rw [htable]
    exact grows_mark hrun _
  · rw [htable]
    exact Grows.refl _

theorem grows_mallocAll (pool : MemPool) (sizes : List Nat) :
    Grows pool.memmap (pool.mallocAll sizes).2.memmap := by
  induction sizes generalizing pool with
  | nil => exact Grows.refl _
  | cons size sizes ih => exact (pool.grows_mymalloc size).trans (ih (pool.mymalloc size).2)

theorem mallocAll_append (pool : MemPool) (first second : List Nat) :
    pool.mallocAll (first ++ second) =
      ((pool.mallocAll first).1 ++ ((pool.mallocAll first).2.mallocAll second).1,
        ((pool.mallocAll first).2.mallocAll second).2) := by
  induction first generalizing pool with
  | nil => rfl
  | cons size first ih => rw [List.cons_append, mallocAll, ih]; rfl

theorem mallocAll_memrdy {pool : MemPool} (hready : pool.memrdy = true) (sizes : List Nat) :
    (pool.mallocAll sizes).2.memrdy = true := by
  induction sizes generalizing pool with
  | nil => exact hready
  | cons size sizes ih => exact ih (pool.mymalloc_memrdy size)

/-- Requests in turn hold the blocks that their pointers name. -/
theorem holds_mallocAll {base : Table} (pool : MemPool) (sizes : List Nat)
    {held : List (Nat × Nat)} (hholds : Holds base pool.memmap held) :
    ∃ blocks, Holds base (pool.mallocAll sizes).2.memmap (held ++ blocks) ∧
      (pool.mallocAll sizes).1.filterMap id = blocks.map (fun b => b.1 * memblksize) ∧
      ∀ b ∈ blocks, b.1 < memtblsize := by
  induction sizes generalizing pool held with
  | nil => exact ⟨[], by rwa [List.append_nil], rfl, fun _ hmem => absurd hmem List.not_mem_nil⟩
  | cons size sizes ih =>
      simp only [mallocAll]
      rcases pool.mymalloc_cases size with
        ⟨start, hrun, hsize, hpointer, htable⟩ | ⟨-, hpointer, htable⟩
      · have hpos := blockCount_pos hsize
        have hinside := hrun.inside
        have hnext : Holds base (pool.mymalloc size).2.memmap
            (held ++ [(start, blockCount size)]) := by
          rw [htable]
          exact hholds.alloc hpos hrun
        obtain ⟨blocks, hblocks, hpointers, hlt⟩ := ih _ hnext
        refine ⟨(start, blockCount size) :: blocks, ?_, ?_, ?_⟩
        · rwa [List.append_assoc] at hblocks
        · rw [hpointer]
          exact congrArg _ hpointers
        · exact List.forall_mem_cons.mpr ⟨by omega, hlt⟩
      · rw [← htable] at hholds
        obtain ⟨blocks, hblocks, hpointers, hlt⟩ := ih _ hholds
        refine ⟨blocks, hblocks, ?_, hlt⟩
        rw [hpointer]
        exact hpointers

/-- Releases one after the other. -/
def freeAll (pool : MemPool) (pointers : List (Option Nat)) : MemPool :=
  pointers.foldl myfree pool

/-- The release of all that is held gives the table back. -/
theorem freeAll_memmap {base : Table} (pointers : List (Option Nat)) {pool : MemPool}
    {blocks : List (Nat × Nat)} (hready : pool.memrdy = true)
    (hholds : Holds base pool.memmap blocks)
    (hpointers : pointers.filterMap id = blocks.map fun b => b.1 * memblksize)
    (hlt : ∀ b ∈ blocks, b.1 < memtblsize) : (pool.freeAll pointers).memmap = base := by
  induction pointers generalizing pool blocks with
  | nil =>
      rw [List.map_eq_nil_iff.mp hpointers.symm] at hholds
      exact hholds.eq_base
  | cons pointer pointers ih =>
      cases pointer with
      | none => exact ih hready hholds hpointers hlt
      | some offset =>
          cases blocks with
          | nil => cases hpointers
          | cons block blocks =>
              obtain ⟨hoffset, hpointers⟩ := List.cons.inj hpointers
              obtain ⟨hfirst, hlt⟩ := List.forall_mem_cons.mp hlt
              have hfree : pool.myfree (some offset) = withMap (release pool.memmap block.1) := by
                have hoffset : offset = block.1 * 64 := hoffset
                have hinside : offset < memsize := by
                  unfold memtblsize at hfirst
                  unfold memsize
                  omega
                rw [myfree, myMemFree, if_pos hready, if_pos hinside, hoffset]
                congr 2
                exact Nat.mul_div_cancel _ (by decide)
              change (MemPool.freeAll (pool.myfree (some offset)) pointers).memmap = base
              rw [hfree]
              exact ih rfl hholds.release hpointers hlt

/-- Requests in turn and then the release of all they got change nothing. -/
theorem freeAll_mallocAll (pool : MemPool) (size : Nat) (sizes : List Nat) :
    ((pool.mallocAll (size :: sizes)).2.freeAll (pool.mallocAll (size :: sizes)).1).memmap =
      pool.memmap := by
  obtain ⟨blocks, hblocks, hpointers, hlt⟩ :=
    pool.holds_mallocAll (size :: sizes) (Holds.refl pool.memmap)
  exact freeAll_memmap _ (mallocAll_memrdy (pool.mymalloc_memrdy size) sizes) hblocks hpointers hlt

/-- A request that is met shows in the table, also after later requests. -/
theorem mallocAll_ne (pool : MemPool) {sizes : List Nat}
    (hmet : ∃ pointer ∈ (pool.mallocAll sizes).1, pointer.isSome = true) :
    ∃ i < memtblsize, (pool.mallocAll sizes).2.memmap i ≠ pool.memmap i := by
  induction sizes generalizing pool with
  | nil =>
      obtain ⟨pointer, hmem, -⟩ := hmet
      cases hmem
  | cons size sizes ih =>
      rcases pool.mymalloc_cases size with
        ⟨start, hrun, hsize, -, htable⟩ | ⟨-, hpointer, htable⟩
      · have hpos := blockCount_pos hsize
        have hinside := hrun.inside
        have hmarked : (pool.mymalloc size).2.memmap start = blockCount size := by
          rw [htable]
          exact if_pos (by omega)
        have hkept := (pool.mymalloc size).2.grows_mallocAll sizes start (by omega)
        refine ⟨start, by omega, ?_⟩
        change ((pool.mymalloc size).2.mallocAll sizes).2.memmap start ≠ pool.memmap start
        rw [hkept, hmarked, hrun.free start (by omega) (by omega)]
        omega
      · obtain ⟨pointer, hmem, hsome⟩ := hmet
        rcases List.mem_cons.mp hmem with rfl | hmem
        · rw [hpointer] at hsome
          cases hsome
        · rw [← htable]
          exact ih (pool.mymalloc size).2 ⟨pointer, hmem, hsome⟩

/-- Requests that are all met found their blocks in the table as it was. -/
theorem Serves.freeRun {pool : MemPool} {sizes : List Nat} (hserves : pool.Serves sizes) :
    ∀ size ∈ sizes, ∃ start, FreeRun pool.memmap memtblsize start (blockCount size) := by
  induction sizes generalizing pool with
  | nil =>
      intro size hmem
      cases hmem
  | cons first sizes ih =>
      obtain ⟨hfirst, hrest⟩ := List.forall_mem_cons.mp hserves
      refine List.forall_mem_cons.mpr ⟨?_, fun size hmem => ?_⟩
      · rcases pool.mymalloc_cases first with ⟨start, hrun, -⟩ | ⟨-, hpointer, -⟩
        · exact ⟨start, hrun⟩
        · rw [hpointer] at hfirst
          cases hfirst
      · obtain ⟨start, hrun⟩ := ih hrest size hmem
        exact ⟨start, (pool.grows_mymalloc first).freeRun hrun⟩

/-- Without blocks for any of the requests the table stays. -/
theorem mallocAll_of_no_run {pool : MemPool} {sizes : List Nat} {need : Nat}
    (hnone : ¬ ∃ start, FreeRun pool.memmap memtblsize start need)
    (hsizes : ∀ size ∈ sizes, need ≤ blockCount size) :
    (pool.mallocAll sizes).2.memmap = pool.memmap := by
  induction sizes generalizing pool with
  | nil => rfl
  | cons size sizes ih =>
      obtain ⟨hfirst, hrest⟩ := List.forall_mem_cons.mp hsizes
      have htable : (pool.mymalloc size).2.memmap = pool.memmap := by
        rcases pool.mymalloc_cases size with ⟨start, hrun, -⟩ | ⟨-, -, htable⟩
        · exact absurd ⟨start, hrun.shorten hfirst⟩ hnone
        · exact htable
      rw [← htable] at hnone ⊢
      exact ih hnone hrest

end MemPool

/-! ## The main result -/

namespace EthMemory

/-- The memory after the eight requests, before any release. -/
def requested (m : EthMemory) (mempsize : Nat) : EthMemory := m.ethRequested.lwipRequested mempsize

/-- The driver's tests never fail, so lwIP's four pointers decide. -/
theorem ethMemAlloc_eq (m : EthMemory) (mempsize : Nat) :
    m.ethMemAlloc mempsize =
      if (m.requested mempsize).lwipFailed then (2, (m.requested mempsize).lwipCommMemFree)
      else (0, m.requested mempsize) := by
  have heth : m.ethMemMalloc = (0, m.ethRequested) := rfl
  have hlwip : m.ethRequested.lwipCommMemMalloc mempsize =
      if (m.requested mempsize).lwipFailed then (1, (m.requested mempsize).lwipCommMemFree)
      else (0, m.requested mempsize) := rfl
  unfold ethMemAlloc
  dsimp only
  rw [heth, if_neg (fun h : (0 : Byte) ≠ 0 => h rfl), hlwip]
  cases (m.requested mempsize).lwipFailed <;> rfl

/-- The driver's requests in turn. -/
theorem mallocAll_ethSizes (m : EthMemory) :
    m.pool.mallocAll ethSizes =
      ([m.ethRequested.dmaRxDscrTab, m.ethRequested.dmaTxDscrTab, m.ethRequested.rxBuff,
        m.ethRequested.txBuff], m.ethRequested.pool) := by
  simp only [ethSizes, MemPool.mallocAll, ethRequested]

/-- lwIP's requests in turn. -/
theorem mallocAll_lwipSizes (m : EthMemory) (mempsize : Nat) :
    m.pool.mallocAll (lwipSizes mempsize) =
      ([(m.lwipRequested mempsize).mempMemory, (m.lwipRequested mempsize).ramHeap,
        (m.lwipRequested mempsize).tcpipThreadTaskStk, (m.lwipRequested mempsize).lwipDhcpTaskStk],
        (m.lwipRequested mempsize).pool) := by
  simp only [lwipSizes, MemPool.mallocAll, lwipRequested]

theorem lwipFailed_requested_iff (m : EthMemory) (mempsize : Nat) :
    (m.requested mempsize).lwipFailed = true ↔
      ¬ (m.pool.mallocAll ethSizes).2.Serves (lwipSizes mempsize) := by
  rw [mallocAll_ethSizes]
  unfold MemPool.Serves lwipFailed
  rw [mallocAll_lwipSizes, ← requested]
  generalize m.requested mempsize = requested
  cases requested.mempMemory <;> cases requested.ramHeap <;>
    cases requested.tcpipThreadTaskStk <;> cases requested.lwipDhcpTaskStk <;> simp

theorem pointers_requested (m : EthMemory) (mempsize : Nat) :
    (m.requested mempsize).pointers =
      (m.pool.mallocAll (ethSizes ++ lwipSizes mempsize)).1 := by
  rw [MemPool.mallocAll_append, mallocAll_ethSizes, mallocAll_lwipSizes]
  simp only [requested, pointers, lwipRequested, List.cons_append, List.nil_append]

/-- The clean-up of lwIP's blocks leaves those of the driver. -/
theorem memmap_lwipCommMemFree (m : EthMemory) (mempsize : Nat) :
    (m.requested mempsize).lwipCommMemFree.pool.memmap =
      (m.pool.mallocAll ethSizes).2.memmap := by
  have hfree := m.ethRequested.pool.freeAll_mallocAll mempsize
    [16000 + 2 * (4 * 3) + 4, 2048 * 4, 128 * 4]
  rw [← lwipSizes, mallocAll_lwipSizes] at hfree
  simp only [MemPool.freeAll, List.foldl_cons, List.foldl_nil] at hfree
  rw [mallocAll_ethSizes, requested, lwipCommMemFree]
  exact hfree

/-- Three free blocks in a row are enough for one of the driver's requests. -/
theorem eth_met_of_freeRun {pool : MemPool}
    (hrun : ∃ start, FreeRun pool.memmap memtblsize start 3) :
    ∃ pointer ∈ (pool.mallocAll ethSizes).1, pointer.isSome = true := by
  rcases pool.mymalloc_cases (10 * 32) with ⟨start, -, -, hpointer, -⟩ | ⟨-, -, htable⟩
  · exact ⟨_, List.mem_cons_self, by rw [hpointer]; rfl⟩
  · rw [← htable] at hrun
    rcases (pool.mymalloc (10 * 32)).2.mymalloc_cases (5 * 32) with
      ⟨start, -, -, hpointer, -⟩ | ⟨hnone | hnone, -, -⟩
    · exact ⟨_, List.mem_cons_of_mem _ List.mem_cons_self, by rw [hpointer]; rfl⟩
    · cases hnone
    · exact absurd hrun hnone

/-- lwIP's heap needs more than three blocks. -/
theorem freeRun_of_serves {m : EthMemory} {mempsize : Nat}
    (hserves : (m.pool.mallocAll ethSizes).2.Serves (lwipSizes mempsize)) :
    ∃ start, FreeRun m.pool.memmap memtblsize start 3 := by
  obtain ⟨start, hrun⟩ := hserves.freeRun (16000 + 2 * (4 * 3) + 4) (by simp [lwipSizes])
  exact ⟨start, ((m.pool.grows_mallocAll ethSizes).freeRun hrun).shorten (by decide)⟩

/-- For every state of the pool and every size of `memp_memory`, `EthMemAlloc` is all or
nothing exactly when the eight requests can be met in turn, or when not even three
blocks in a row are free. -/
theorem all_or_nothing_iff (m : EthMemory) (mempsize : Nat) :
    AllOrNothing m (m.ethMemAlloc mempsize) ↔
      m.pool.Serves (ethSizes ++ lwipSizes mempsize) ∨
        ¬ ∃ start, FreeRun m.pool.memmap memtblsize start 3 := by
  have hserves : m.pool.Serves (ethSizes ++ lwipSizes mempsize) ↔
      m.pool.Serves ethSizes ∧ (m.pool.mallocAll ethSizes).2.Serves (lwipSizes mempsize) := by
    unfold MemPool.Serves
    rw [MemPool.mallocAll_append]
    exact List.forall_mem_append
  by_cases hlwip : (m.pool.mallocAll ethSizes).2.Serves (lwipSizes mempsize)
  · have hresult : m.ethMemAlloc mempsize = (0, m.requested mempsize) := by
      rw [ethMemAlloc_eq, if_neg]
      rw [lwipFailed_requested_iff]
      exact not_not.mpr hlwip
    rw [hresult, or_iff_left (not_not.mpr (freeRun_of_serves hlwip))]
    constructor
    · intro hall
      have hpointers := hall.all rfl
      rw [pointers_requested] at hpointers
      exact hpointers
    · intro hall
      refine ⟨fun _ => ?_, fun h => absurd rfl h⟩
      rw [pointers_requested]
      exact hall
  · have hresult : m.ethMemAlloc mempsize = (2, (m.requested mempsize).lwipCommMemFree) := by
      rw [ethMemAlloc_eq, if_pos ((lwipFailed_requested_iff m mempsize).mpr hlwip)]
    rw [hresult, hserves, or_iff_right (fun h => hlwip h.2)]
    constructor
    · intro hnothing hrun
      obtain ⟨i, hi, hne⟩ := m.pool.mallocAll_ne (eth_met_of_freeRun hrun)
      have hsame := hnothing.nothing (show (2 : Byte) ≠ 0 by decide) i hi
      rw [memmap_lwipCommMemFree] at hsame
      exact hne hsame
    · intro hnone
      refine ⟨fun h => absurd h (show (2 : Byte) ≠ 0 by decide), fun _ i _ => ?_⟩
      rw [memmap_lwipCommMemFree, MemPool.mallocAll_of_no_run hnone (by decide)]

/-- The memory at the first call, with an empty table. -/
def atBoot : EthMemory where
  pool := MemPool.myMemInit
  dmaRxDscrTab := none
  dmaTxDscrTab := none
  rxBuff := none
  txBuff := none
  mempMemory := none
  ramHeap := none
  tcpipThreadTaskStk := none
  lwipDhcpTaskStk := none

/-- With a `memp_memory` of 100 KiB the call fails with 2, and the table still has the
blocks of the driver. -/
theorem driver_blocks_left_marked :
    (atBoot.ethMemAlloc 102400).1 = 2 ∧ ¬ AllOrNothing atBoot (atBoot.ethMemAlloc 102400) := by
  have hfailed : (atBoot.ethMemAlloc 102400).1 = 2 := by decide +kernel
  have hmarked : (atBoot.ethMemAlloc 102400).2.pool.memmap 1599 = 5 := by decide +kernel
  refine ⟨hfailed, fun hnothing => ?_⟩
  have hsame := hnothing.nothing (by rw [hfailed]; decide) 1599 (by decide)
  rw [hmarked] at hsame
  exact absurd hsame (by decide)

end EthMemory

end FiuNv
