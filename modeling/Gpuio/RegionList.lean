import Gpuio.Basic
import Mathlib.Data.List.Nodup
import Mathlib.Data.List.Perm.Subperm

/-!
# The region list

`ctx->regions` is a singly linked list threaded through the `next` fields of region records on the
heap. `ListSeg heap p l q` says that following `next` from `p` visits the live records at the
addresses `l`, in order, and arrives at `q`; `RegionsRep` is the case `q = NULL`. Such a list is
finite by construction, and it is duplicate-free because the list hanging off a pointer is unique.

The two loops of `memory.c` that walk the list, the scan of `gpuio_free` and the pointer-to-pointer
unlink of `gpuio_unregister_memory`, are written below as the C runs them, one iteration per step,
with a bound on the iterations. A list of distinct non-`NULL` 64-bit addresses has fewer nodes than
`2 ^ 64`, so on a represented list neither loop reaches the bound; only a cyclic list would.
-/

namespace Gpuio

inductive ListSeg (heap : Heap) : Ptr → List Ptr → Ptr → Prop
  | nil (p : Ptr) : ListSeg heap p [] p
  | cons {p q : Ptr} {l : List Ptr} (r : MemoryRegionInternal) (hp : p ≠ 0)
      (hr : heap p = some (.region r)) (tail : ListSeg heap r.next l q) :
      ListSeg heap p (p :: l) q

def RegionsRep (heap : Heap) (head : Ptr) (l : List Ptr) : Prop :=
  ListSeg heap head l 0

/-- Iterations a list walk is given: the number of 64-bit addresses. -/
def walkBound : Nat := UInt64.size

namespace ListSeg

variable {heap heap' : Heap} {p q t x : Ptr} {l l₁ l₂ : List Ptr}

theorem append (h₁ : ListSeg heap p l₁ q) (h₂ : ListSeg heap q l₂ t) :
    ListSeg heap p (l₁ ++ l₂) t := by
  induction h₁ with
  | nil => exact h₂
  | cons r hp hr _ ih => exact .cons r hp hr (ih h₂)

theorem split (h : ListSeg heap p (l₁ ++ l₂) t) :
    ∃ q, ListSeg heap p l₁ q ∧ ListSeg heap q l₂ t := by
  induction l₁ generalizing p with
  | nil => exact ⟨p, .nil p, h⟩
  | cons y l₁ ih =>
    cases h with
    | cons r hp hr tail =>
      obtain ⟨q, h₁, h₂⟩ := ih tail
      exact ⟨q, .cons r hp hr h₁, h₂⟩

theorem frame (h : ListSeg heap p l q) (hagree : ∀ y ∈ l, heap' y = heap y) :
    ListSeg heap' p l q := by
  induction h with
  | nil => exact .nil _
  | cons r hp hr _ ih =>
    exact .cons r hp ((hagree _ (List.mem_cons_self _ _)).trans hr)
      (ih fun y hy => hagree y (List.mem_cons_of_mem _ hy))

theorem live (h : ListSeg heap p l q) (hx : x ∈ l) :
    x ≠ 0 ∧ ∃ r, heap x = some (.region r) := by
  induction h with
  | nil => simp at hx
  | cons r hp hr _ ih =>
    rcases List.mem_cons.mp hx with rfl | hx
    · exact ⟨hp, r, hr⟩
    · exact ih hx

end ListSeg

namespace RegionsRep

variable {heap heap' : Heap} {p x : Ptr} {l l₁ l₂ : List Ptr}

theorem eq_nil_of_zero (h : RegionsRep heap 0 l) : l = [] := by
  cases h with
  | nil => rfl
  | cons _ hp => exact absurd rfl hp

theorem head_live (h : RegionsRep heap p l) (hp : p ≠ 0) : ∃ r, heap p = some (.region r) := by
  cases h with
  | nil => exact absurd rfl hp
  | cons r _ hr _ => exact ⟨r, hr⟩

theorem unique (h₁ : RegionsRep heap p l₁) (h₂ : RegionsRep heap p l₂) : l₁ = l₂ := by
  induction l₁ generalizing p l₂ with
  | nil => cases h₁; exact (eq_nil_of_zero h₂).symm
  | cons y l₁ ih =>
    cases h₁ with
    | cons r hp hr tail =>
      cases h₂ with
      | nil => exact absurd rfl hp
      | cons r' _ hr' tail' =>
        cases hr.symm.trans hr'
        rw [ih tail tail']

theorem nodup (h : RegionsRep heap p l) : l.Nodup := by
  induction l generalizing p with
  | nil => exact List.nodup_nil
  | cons y l ih =>
    cases h with
    | cons r hp hr tail =>
      refine List.nodup_cons.mpr ⟨fun hy => ?_, ih tail⟩
      obtain ⟨s, t, rfl⟩ := List.append_of_mem hy
      obtain ⟨q, -, hq⟩ := ListSeg.split tail
      cases hq with
      | cons r' hp' hr' tail' =>
        have hlen := congrArg List.length (unique (.cons r hp hr tail) (.cons r' hp' hr' tail'))
        simp at hlen
        omega

theorem length_lt (h : RegionsRep heap p l) : l.length < walkBound := by
  have hnd : (l.map UInt64.toNat).Nodup := h.nodup.map fun _ _ => UInt64.toNat.inj
  have hsub : l.map UInt64.toNat ⊆ List.range' 1 (walkBound - 1) := by
    intro n hn
    obtain ⟨y, hy, rfl⟩ := List.mem_map.mp hn
    have hy0 : y.toNat ≠ 0 := fun h0 => (ListSeg.live h hy).1 (UInt64.toNat.inj h0)
    have hlt : y.toNat < walkBound := y.toNat_lt_size
    rw [List.mem_range'_1]
    omega
  have := (hnd.subperm hsub).length_le
  rw [List.length_map, List.length_range'] at this
  have : 0 < walkBound := by decide
  omega

end RegionsRep

/-! ### The scan of `gpuio_free` -/

def Heap.baseAt (heap : Heap) (p : Ptr) : Option Ptr :=
  match heap p with
  | some (.region r) => some r.baseAddr
  | _ => none

/-- `while (region) { if (region->base_addr == ptr) ...; region = region->next; }`, for at most
`fuel` iterations; `true` is the early exit that makes `gpuio_free` return `BUSY`. -/
def scanRegions (heap : Heap) (ptr : Ptr) : Nat → Ptr → Except Fault Bool
  | 0, _ => .error .loop
  | fuel + 1, region =>
    if region = 0 then .ok false
    else
      match heap region with
      | some (.region r) => if r.baseAddr = ptr then .ok true else scanRegions heap ptr fuel r.next
      | _ => .error (.invalidAccess region)

theorem scanRegions_eq {heap : Heap} {ptr p : Ptr} {l : List Ptr} {fuel : Nat}
    (h : RegionsRep heap p l) (hfuel : l.length < fuel) :
    scanRegions heap ptr fuel p = .ok (l.any fun x => heap.baseAt x == some ptr) := by
  induction l generalizing p fuel with
  | nil =>
    cases h
    obtain ⟨f, rfl⟩ : ∃ f, fuel = f + 1 := ⟨fuel - 1, by omega⟩
    simp [scanRegions]
  | cons x l ih =>
    cases h with
    | cons r hp hr tail =>
      simp only [List.length_cons] at hfuel
      obtain ⟨f, rfl⟩ : ∃ f, fuel = f + 1 := ⟨fuel - 1, by omega⟩
      have hrest : scanRegions heap ptr f r.next = _ := ih tail (by omega)
      by_cases hb : r.baseAddr = ptr <;> simp [scanRegions, hp, hr, hb, Heap.baseAt, hrest]

/-! ### The unlink loop of `gpuio_unregister_memory` -/

/-- Where `current` points in the unlink loop: at `ctx->regions`, or at the `next` field of the
record at `p`. -/
inductive Slot
  | head
  | next (p : Ptr)

/-- `*current`. -/
def Slot.load (regions : Ptr) (heap : Heap) : Slot → Except Fault Ptr
  | .head => .ok regions
  | .next p =>
    match heap p with
    | some (.region r) => .ok r.next
    | _ => .error (.invalidAccess p)

/-- `*current = v`, giving the new `ctx->regions` and heap. -/
def Slot.store (regions : Ptr) (heap : Heap) (v : Ptr) : Slot → Except Fault (Ptr × Heap)
  | .head => .ok (v, heap)
  | .next p =>
    match heap p with
    | some (.region r) =>
      .ok (regions, Function.update heap p (some (.region { r with next := v })))
    | _ => .error (.invalidAccess p)

/-- `while (*current) { if (*current == internal) { *current = internal->next; break; }
current = &(*current)->next; }`, for at most `fuel` iterations. -/
def unlinkRegion (internal regions : Ptr) (heap : Heap) : Nat → Slot → Except Fault (Ptr × Heap)
  | 0, _ => .error .loop
  | fuel + 1, current =>
    match current.load regions heap with
    | .error f => .error f
    | .ok c =>
      if c = 0 then .ok (regions, heap)
      else if c = internal then
        match heap internal with
        | some (.region r) => current.store regions heap r.next
        | _ => .error (.invalidAccess internal)
      else unlinkRegion internal regions heap fuel (.next c)

/-- The slot the loop reaches from `current` after stepping over the records `l`. -/
def Slot.after : Slot → List Ptr → Slot
  | current, [] => current
  | _, p :: l => Slot.after (.next p) l

theorem Slot.after_concat (current : Slot) (l : List Ptr) (p : Ptr) :
    current.after (l ++ [p]) = .next p := by
  induction l generalizing current with
  | nil => rfl
  | cons y l ih => exact ih _

/-- A block as it is apart from a region record's link. -/
def Block.unlinked : Block → Block
  | .region r => .region { r with next := 0 }
  | b => b

section Unlink

variable {heap : Heap} {internal regions x : Ptr} {current : Slot} {l : List Ptr} {fuel : Nat}

theorem unlinkRegion_of_not_mem (hload : current.load regions heap = .ok x)
    (h : RegionsRep heap x l) (hnot : internal ∉ l) (hfuel : l.length < fuel) :
    unlinkRegion internal regions heap fuel current = .ok (regions, heap) := by
  induction l generalizing current x fuel with
  | nil =>
    cases h
    obtain ⟨f, rfl⟩ : ∃ f, fuel = f + 1 := ⟨fuel - 1, by omega⟩
    simp [unlinkRegion, hload]
  | cons y l ih =>
    cases h with
    | cons r hp hr tail =>
      simp only [List.mem_cons, not_or, List.length_cons] at hnot hfuel
      obtain ⟨f, rfl⟩ : ∃ f, fuel = f + 1 := ⟨fuel - 1, by omega⟩
      simp only [unlinkRegion, hload, hp, Ne.symm hnot.1, if_false]
      exact ih (by simp [Slot.load, hr]) tail hnot.2 (by omega)

theorem unlinkRegion_of_seg {r : MemoryRegionInternal} (hload : current.load regions heap = .ok x)
    (h : ListSeg heap x l internal) (hnot : internal ∉ l) (hi0 : internal ≠ 0)
    (hi : heap internal = some (.region r)) (hfuel : l.length < fuel) :
    unlinkRegion internal regions heap fuel current = (current.after l).store regions heap r.next := by
  induction l generalizing current x fuel with
  | nil =>
    cases h
    obtain ⟨f, rfl⟩ : ∃ f, fuel = f + 1 := ⟨fuel - 1, by omega⟩
    simp [unlinkRegion, hload, hi0, hi, Slot.after]
  | cons y l ih =>
    cases h with
    | cons ry hp hr tail =>
      simp only [List.mem_cons, not_or, List.length_cons] at hnot hfuel
      obtain ⟨f, rfl⟩ : ∃ f, fuel = f + 1 := ⟨fuel - 1, by omega⟩
      simp only [unlinkRegion, hload, hp, Ne.symm hnot.1, if_false, Slot.after]
      exact ih (by simp [Slot.load, hr]) tail hnot.2 (by omega)

/-- Unlinking a handle that is not on the list changes nothing. -/
theorem unlinkRegion_head_of_not_mem (h : RegionsRep heap regions l) (hnot : internal ∉ l) :
    unlinkRegion internal regions heap walkBound .head = .ok (regions, heap) :=
  unlinkRegion_of_not_mem rfl h hnot h.length_lt

/-- Unlinking a handle on the list removes exactly it, and of every other block changes at most
the link of its predecessor. -/
theorem unlinkRegion_head_of_mem {pre post : List Ptr}
    (h : RegionsRep heap regions (pre ++ internal :: post)) :
    ∃ regions' heap', unlinkRegion internal regions heap walkBound .head = .ok (regions', heap') ∧
      RegionsRep heap' regions' (pre ++ post) ∧
      ∀ y, (heap' y).map Block.unlinked = (heap y).map Block.unlinked := by
  have hin : internal ∉ pre := fun hm =>
    (List.nodup_cons.mp (List.nodup_middle.mp h.nodup)).1 (List.mem_append_left _ hm)
  obtain ⟨q, hpre, hq⟩ := ListSeg.split h
  cases hq with
  | cons r hi0 hi tail =>
    have hlen : pre.length < walkBound := by
      have := h.length_lt
      simp only [List.length_append, List.length_cons] at this
      omega
    rw [unlinkRegion_of_seg (show Slot.head.load regions heap = .ok regions from rfl) hpre
      hin hi0 hi hlen]
    rcases List.eq_nil_or_concat pre with rfl | ⟨pre', p, rfl⟩
    · exact ⟨r.next, heap, rfl, tail, fun _ => rfl⟩
    · simp only [List.concat_eq_append] at hpre h
      have hp : p ∉ pre' ++ internal :: post := (List.nodup_cons.mp (List.nodup_middle.mp
        (show (pre' ++ p :: internal :: post).Nodup by simpa using h.nodup))).1
      obtain ⟨p', hpre', hp'⟩ := ListSeg.split hpre
      cases hp' with
      | cons rp hp0 hrp hlink =>
        cases hlink
        refine ⟨regions, Function.update heap p (some (.region { rp with next := r.next })),
          by simp [Slot.after_concat, Slot.store, hrp], ?_, fun y => ?_⟩
        · have hseg : ListSeg (Function.update heap p (some (.region { rp with next := r.next })))
              p [p] r.next := .cons _ hp0 (Function.update_same _ _ _) (.nil _)
          have hpre'' : ListSeg (Function.update heap p (some (.region { rp with next := r.next })))
              regions pre' p := hpre'.frame fun y hy =>
            Function.update_noteq (by rintro rfl; exact hp (List.mem_append_left _ hy)) _ _
          have htail : RegionsRep
              (Function.update heap p (some (.region { rp with next := r.next }))) r.next post :=
            tail.frame fun y hy => Function.update_noteq
              (by rintro rfl; exact hp (List.mem_append_right _ (List.mem_cons_of_mem _ hy))) _ _
          simpa [List.append_assoc] using hpre''.append (hseg.append htail)
        · by_cases hy : y = p
          · subst hy
            simp [hrp, Block.unlinked]
          · simp [Function.update_noteq hy]

theorem Slot.store_unlinked {v regions' : Ptr} {heap' : Heap}
    (h : current.store regions heap v = .ok (regions', heap')) (y : Ptr) :
    (heap' y).map Block.unlinked = (heap y).map Block.unlinked := by
  cases current with
  | head => cases h; rfl
  | next q =>
    simp only [Slot.store] at h
    split at h
    · cases h
      rename_i r hq
      by_cases hy : y = q
      · subst hy
        rw [Function.update_same, hq]
        rfl
      · rw [Function.update_noteq hy]
    · cases h

/-- The unlink loop rewrites at most the links of region records. -/
theorem unlinkRegion_unlinked {regions' : Ptr} {heap' : Heap}
    (h : unlinkRegion internal regions heap fuel current = .ok (regions', heap')) (y : Ptr) :
    (heap' y).map Block.unlinked = (heap y).map Block.unlinked := by
  induction fuel generalizing current with
  | zero => cases h
  | succ fuel ih =>
    simp only [unlinkRegion] at h
    split at h
    · cases h
    · split_ifs at h
      · cases h
        rfl
      · split at h
        · exact Slot.store_unlinked h y
        · cases h
      · exact ih h

theorem Block.eq_of_unlinked_eq {b b' : Block} (hb : ∀ r, b ≠ .region r)
    (e : b'.unlinked = b.unlinked) : b' = b := by
  cases b <;> cases b' <;> simp_all [Block.unlinked]

/-- The unlink loop writes only region records: every other live block is as it was. -/
theorem unlinkRegion_keeps_other {regions' : Ptr} {heap' : Heap} {p : Ptr} {b : Block}
    (h : unlinkRegion internal regions heap fuel current = .ok (regions', heap'))
    (hp : heap p = some b) (hb : ∀ r, b ≠ .region r) : heap' p = some b := by
  have e : (heap' p).map Block.unlinked = some b.unlinked := by rw [unlinkRegion_unlinked h, hp]; rfl
  obtain ⟨b', hb', e⟩ := Option.map_eq_some'.1 e
  rw [hb', Block.eq_of_unlinked_eq hb e]

end Unlink

end Gpuio
