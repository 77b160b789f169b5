/-
The mappings of the MMC buffers.

A list is mapped with the number of its entries and the direction of its transfer, which are
kept in `host->dma`.  It is unmapped, when its data is done, with `host->dma_len` and
`host->dma_dir`, which nothing ever writes: no entry, in the direction zero
(`DMA_BIDIRECTIONAL`).  The directions used for mapping are one and two, so no mapping is ever
undone as it was made; on the paths that end without the data being done it is not undone
at all.
-/
import Dingoo.Proofs.JzMmcDma

namespace Dingoo.MmcDma

open Dingoo.Lib Dingoo.MmcHost

variable {m : Nat × Nat} {trace : List TraceEvent} {mrq : Nat}

/-- Request, entries and direction of a mapping, or of an unmapping. -/
def mapOf : TraceEvent → Option (Nat × Nat × Nat)
  | .map mrq entries dir => some (mrq, entries, dir)
  | _ => none

def unmapOf : TraceEvent → Option (Nat × Nat × Nat)
  | .unmap mrq entries dir => some (mrq, entries, dir)
  | _ => none

/-- Those of one request. -/
def ofRequest (mrq : Nat) (l : List (Nat × Nat × Nat)) : List (Nat × Nat) :=
  l.filterMap fun m => if m.1 = mrq then some m.2 else none

def mappings (mrq : Nat) (trace : List TraceEvent) : List (Nat × Nat) :=
  ofRequest mrq (trace.filterMap mapOf)

def unmappings (mrq : Nat) (trace : List TraceEvent) : List (Nat × Nat) :=
  ofRequest mrq (trace.filterMap unmapOf)

/-- Each list mapped for a request that is given back is unmapped, once and before that, with the
entries and the direction of the mapping. -/
def MappingsUndone (trace : List TraceEvent) : Prop :=
  ∀ pre post mrq, trace = pre ++ .host (.done (some mrq)) :: post →
    ∀ m ∈ mappings mrq trace, unmappings mrq pre = [m] ∧ unmappings mrq post = []

/-- No request is given back for which a list was mapped. -/
def NoneMapped (trace : List TraceEvent) : Prop :=
  ∀ pre post mrq, trace = pre ++ .host (.done (some mrq)) :: post → mappings mrq trace = []

/-! ### The invariant -/

/-- A direction of a transfer. -/
def IsDir (dir : Nat) : Prop := dir = DMA_TO_DEVICE ∨ dir = DMA_FROM_DEVICE

structure Unwritten (t : Traced) : Prop where
  len : t.hostDmaLen = 0
  dir : t.hostDmaDir = 0
  maps : ∀ i entries dir, .map i entries dir ∈ t.trace → IsDir dir
  unmaps : ∀ i entries dir, .unmap i entries dir ∈ t.trace → entries = 0 ∧ dir = 0

theorem isDir_dirOf (flags : BitVec 32) : IsDir (dirOf flags) := by
  unfold dirOf
  split
  · exact Or.inr rfl
  · exact Or.inl rfl

theorem Unwritten.append {t t' : Traced} (h : Unwritten t) {events : List TraceEvent}
    (hlen : t'.hostDmaLen = t.hostDmaLen) (hdir : t'.hostDmaDir = t.hostDmaDir)
    (htrace : t'.trace = t.trace ++ events)
    (hmaps : ∀ i entries dir, .map i entries dir ∈ events → IsDir dir)
    (hunmaps : ∀ i entries dir, .unmap i entries dir ∈ events → entries = 0 ∧ dir = 0) :
    Unwritten t' where
  len := hlen.trans h.len
  dir := hdir.trans h.dir
  maps := fun i entries dir hmem => by
    rw [htrace] at hmem
    rcases List.mem_append.mp hmem with hold | hnew
    · exact h.maps i entries dir hold
    · exact hmaps i entries dir hnew
  unmaps := fun i entries dir hmem => by
    rw [htrace] at hmem
    rcases List.mem_append.mp hmem with hold | hnew
    · exact h.unmaps i entries dir hold
    · exact hunmaps i entries dir hnew

theorem kept_unwritten (sgLen : Nat → Nat) : Kept sgLen Unwritten where
  part := fun _ t ht => by
    refine ht.append rfl rfl rfl (fun i entries dir hmem => ?_) fun i entries dir hmem => ?_
    · obtain ⟨e, -, he⟩ := List.mem_map.mp hmem
      cases he
    · obtain ⟨e, -, he⟩ := List.mem_map.mp hmem
      cases he
  map := fun i flags t ht => by
    refine ht.append rfl rfl rfl (fun j entries dir hmem => ?_) fun j entries dir hmem => ?_
    · cases List.mem_singleton.mp hmem
      exact isDir_dirOf flags
    · cases List.mem_singleton.mp hmem
  unmap := fun t i ht => by
    refine ht.append rfl rfl rfl (fun j entries dir hmem => ?_) fun j entries dir hmem => ?_
    · cases List.mem_singleton.mp hmem
    · cases List.mem_singleton.mp hmem
      exact ⟨ht.len, ht.dir⟩
  start := fun t p c ht => by
    refine ht.append rfl rfl rfl (fun j entries dir hmem => ?_) fun j entries dir hmem => ?_
    · cases List.mem_singleton.mp hmem
    · cases List.mem_singleton.mp hmem

/-! ### Mappings are not undone -/

theorem mem_ofRequest {l : List (Nat × Nat × Nat)} (h : m ∈ ofRequest mrq l) : (mrq, m) ∈ l := by
  obtain ⟨x, hx, hm⟩ := List.mem_filterMap.mp h
  by_cases hmrq : x.1 = mrq
  · rw [if_pos hmrq] at hm
    cases hm
    rw [← hmrq]
    exact hx
  · rw [if_neg hmrq] at hm
    cases hm

theorem mem_mappings (h : m ∈ mappings mrq trace) : .map mrq m.1 m.2 ∈ trace := by
  obtain ⟨e, he, hm⟩ := List.mem_filterMap.mp (mem_ofRequest h)
  cases e with
  | map i entries dir =>
    cases hm
    exact he
  | host | start | unmap => cases hm

theorem mem_unmappings (h : m ∈ unmappings mrq trace) : .unmap mrq m.1 m.2 ∈ trace := by
  obtain ⟨e, he, hm⟩ := List.mem_filterMap.mp (mem_ofRequest h)
  cases e with
  | unmap i entries dir =>
    cases hm
    exact he
  | host | start | map => cases hm

theorem Unwritten.unmappings_ne {t : Traced} (h : Unwritten t) {pre post : List TraceEvent}
    (htrace : t.trace = pre ++ post) (hm : m ∈ mappings mrq t.trace) :
    unmappings mrq pre ≠ [m] := by
  intro heq
  have hdir := h.maps _ _ _ (mem_mappings hm)
  have hunmap : m ∈ unmappings mrq pre := by
    rw [heq]
    exact List.mem_singleton_self m
  have hmem : .unmap mrq m.1 m.2 ∈ t.trace := by
    rw [htrace]
    exact List.mem_append_left post (mem_unmappings hunmap)
  have hzero := (h.unmaps _ _ _ hmem).2
  rcases hdir with hto | hfrom
  · rw [hzero] at hto
    cases hto
  · rw [hzero] at hfrom
    cases hfrom

/-- **The mappings are undone exactly if no request with a mapped list is given back**: for every
sequence of requests and every outcome of commands and transfers, no mapping is undone as it
was made. -/
theorem mappings_undone_iff (sgLen : Nat → Nat) (regArg : BitVec 32) (acts : List Act) :
    MappingsUndone (run sgLen (initTraced regArg) acts).trace ↔
      NoneMapped (run sgLen (initTraced regArg) acts).trace := by
  have hunwritten : Unwritten (run sgLen (initTraced regArg) acts) :=
    (kept_unwritten sgLen).run acts
      ⟨rfl, rfl, fun _ _ _ h => absurd h List.not_mem_nil, fun _ _ _ h => absurd h List.not_mem_nil⟩
  constructor
  · intro hundone pre post mrq htrace
    refine List.eq_nil_iff_forall_not_mem.mpr fun m hm => ?_
    exact hunwritten.unmappings_ne htrace hm (hundone pre post mrq htrace m hm).1
  · intro hnone pre post mrq htrace m hm
    rw [hnone pre post mrq htrace] at hm
    cases hm

/-- A read of one block. -/
def readRequest : Request :=
  { cmd := { opcode := 17, arg := 0, flags := 0x15, resp := fun _ => 0, error := 0 }
    data := some { blksz := 512, blocks := 1, flags := mmcDataRead, error := 0, bytesXfered := 0 }
    stop := none }

/-- The data has arrived. -/
def dataArrived : IrqEnv :=
  { ireg := dataTranDone, stat := 0, dataStat := 0
    stop := { slotEnable := true, stat := 0, res := fun _ => 0 } }

/-- A read that succeeds. -/
def readDone : List TraceEvent :=
  (run (fun _ => 1) (initTraced 0)
    [.request readRequest ⟨true, 0, fun _ => 0⟩ fun _ => none, .irq dataArrived]).trace

/-- A read whose command times out. -/
def readTimedOut : List TraceEvent :=
  (run (fun _ => 1) (initTraced 0)
    [.request readRequest ⟨true, statTimeOutRes, fun _ => 0⟩ fun _ => none]).trace

/-- The list is mapped with one entry from the device.  When the read succeeds it is unmapped with
no entry and direction zero; when the command times out it is not unmapped. -/
theorem read_not_undone :
    mappings 0 readDone = [(1, DMA_FROM_DEVICE)] ∧ unmappings 0 readDone = [(0, 0)] ∧
    mappings 0 readTimedOut = [(1, DMA_FROM_DEVICE)] ∧ unmappings 0 readTimedOut = [] ∧
    ¬ MappingsUndone readDone ∧ ¬ MappingsUndone readTimedOut := by
  refine ⟨by decide, by decide, by decide, by decide, fun h => ?_, fun h => ?_⟩
  · have hone := h readDone.dropLast [] 0 (by decide) (1, DMA_FROM_DEVICE) (by decide)
    exact absurd hone.1 (by decide)
  · have hone := h readTimedOut.dropLast [] 0 (by decide) (1, DMA_FROM_DEVICE) (by decide)
    exact absurd hone.1 (by decide)

end Dingoo.MmcDma
