import Cygnus.Queue.RoundTripConverse

namespace Cygnus.Queue

open Sequence Result

theorem dumps_ok {p : PyObj} {b : Bytes} (h : dumps p = .ok b) :
    ∃ out, encode (maxDepth + 1) p = ⟨out, none⟩ ∧ b = header ++ out ∧
      b.length ≤ maxSerializedBytes := by
  simp only [dumps] at h
  split at h
  · cases h
  · rename_i hnone
    obtain ⟨_, out, hheader, hencode, hbytes⟩ := Emit.seq_eq.mp (Emit.ext_iff_error.mp hnone)
    obtain rfl := Emit.write_eq.mp hheader
    split at h
    · cases h
    · rename_i hlen
      rw [hbytes] at h hlen
      cases h
      exact ⟨out, hencode, rfl, Nat.le_of_not_lt hlen⟩

theorem dumps_of_encode {p : PyObj} {out : Bytes} (h : encode (maxDepth + 1) p = ⟨out, none⟩)
    (hlen : (header ++ out).length ≤ maxSerializedBytes) : dumps p = .ok (header ++ out) := by
  simp only [dumps, h, Emit.seq, Emit.write]
  rw [if_neg (Nat.not_lt.mpr hlen)]

theorem loads_header {out : Bytes} (hlen : (header ++ out).length ≤ maxSerializedBytes)
    (v : Value) : loads (header ++ out) = .ok v ↔ decode (maxDepth + 1) out = .ok (v, []) := by
  have hshort : header.length ≤ (header ++ out).length := by simp
  have hmagic : (header ++ out).take magic.length = magic := rfl
  have hversion : (header ++ out).drop magic.length = version :: out := rfl
  simp only [loads, hversion, bind_ok, require_ok, pure_ok, hshort, hmagic, hlen, true_and,
    exists_const]
  constructor
  · rintro ⟨⟨v', rest⟩, hdecode, hrest, rfl⟩
    rw [hdecode, show rest = [] from hrest]
  · intro hdecode
    exact ⟨(v, []), hdecode, rfl, rfl⟩

theorem canon_restored (levels : Nat) (p : PyObj) :
    (restored levels p).canon = restored levels p := by
  induction levels generalizing p with
  | zero => rfl
  | succ levels ih =>
    have hitems : ∀ items : List PyObj,
        (items.map (restored levels)).map Value.canon = items.map (restored levels) := by
      intro items
      rw [List.map_map]
      exact List.map_congr_left fun x _ => ih x
    cases p with
    | none | bool | int | str | bytes | bytearray | other => rfl
    | list items => rw [restored, Value.canon, canonItems_eq, hitems]
    | tuple items => rw [restored, Value.canon, canonItems_eq, hitems]
    | dict entries =>
      rw [restored, Value.canon, canonEntries_eq, List.map_map]
      have hmap : (fun e : PyStr × Value => (e.1, e.2.canon)) ∘
          (fun e : PyStr × PyObj => (e.1, restored levels e.2)) =
            fun e => (e.1, restored levels e.2) := by
        funext e
        exact Prod.ext rfl (ih e.2)
      rw [hmap, sortedBy_fst_map, sortedBy_sortedBy]
    | exc name text args =>
      rw [restored, Value.canon, canonItems_eq]
      split
      · have htuple := ih (.tuple args)
        cases levels with
        | zero => rfl
        | succ levels =>
          simp only [restored, Value.canon, canonItems_eq, Value.tuple.injEq] at htuple
          simp only [restored, Value.items, htuple]
      · rfl

/-- A payload: an object as Python can build it. -/
abbrev Payload := { p : PyObj // p.DistinctKeys }

theorem loads_of_intact (p : Payload) {b : Bytes} (h : dumps p.1 = .ok b)
    (hintact : Intact (maxDepth + 1) p.1) :
    loads b = .ok (restored (maxDepth + 1) p.1) := by
  obtain ⟨out, hencode, rfl, hlen⟩ := dumps_ok h
  have hsmall : out.length ≤ maxSerializedBytes := by
    rw [List.length_append] at hlen
    omega
  rw [loads_header hlen]
  simpa using decode_encode (maxDepth + 1) p.2 hencode hsmall hintact []

theorem intact_of_loads (p : Payload) {b : Bytes} {v : Value} (h : dumps p.1 = .ok b)
    (hloads : loads b = .ok v) (hv : v.canon = restored (maxDepth + 1) p.1) :
    Intact (maxDepth + 1) p.1 := by
  obtain ⟨out, hencode, rfl, hlen⟩ := dumps_ok h
  have hsmall : out.length ≤ maxSerializedBytes := by
    rw [List.length_append] at hlen
    omega
  rw [loads_header hlen] at hloads
  exact (intact_of_decode (maxDepth + 1) p.2 hencode hsmall [] v [] (by simpa using hloads) hv).1

/-- A payload that was dumped is restored exactly when it is intact. -/
theorem loads_dumps_restored_iff (p : Payload) (b : Bytes) (h : dumps p.1 = .ok b) :
    (∃ v, loads b = .ok v ∧ v.canon = restored (maxDepth + 1) p.1) ↔
      Intact (maxDepth + 1) p.1 := by
  constructor
  · rintro ⟨v, hloads, hv⟩
    exact intact_of_loads p h hloads hv
  · intro hintact
    exact ⟨_, loads_of_intact p h hintact, canon_restored _ _⟩

/-- A failed job: one exception with the given arguments, and an attempt count. -/
def failedJob (args : List PyObj) : PyObj :=
  .list [.exc (Utf8.ofString "ValueError") (Utf8.ofString "x") args, .int 7]

theorem failedJob_distinctKeys {args : List PyObj} (h : ∀ x ∈ args, x.DistinctKeys) :
    (failedJob args).DistinctKeys := by
  refine .list ?_
  intro x hx
  simp only [List.mem_cons, List.not_mem_nil, or_false] at hx
  rcases hx with rfl | rfl
  · exact .exc _ _ h
  · exact .int 7

def unsupportedArg : Payload :=
  ⟨failedJob [.other "set"], failedJob_distinctKeys (by simpa using .other "set")⟩

def partlyEncodedArgs : Payload :=
  ⟨failedJob [.int 1, .other "set"], failedJob_distinctKeys (by
    intro x hx
    simp only [List.mem_cons, List.not_mem_nil, or_false] at hx
    rcases hx with rfl | rfl
    · exact .int 1
    · exact .other "set")⟩

/-- The hypotheses hold together: a single unsupported argument leaves nothing behind. -/
theorem unsupportedArg_restored :
    ∃ b, dumps unsupportedArg.1 = .ok b ∧
      ∃ v, loads b = .ok v ∧ v.canon = restored (maxDepth + 1) unsupportedArg.1 := by
  refine ⟨header ++ [6, 2, 9, 4, 10, 86, 97, 108, 117, 101, 69, 114, 114, 111, 114, 7, 1, 4, 1,
    120, 3, 14], by decide +kernel, (loads_dumps_restored_iff _ _ (by decide +kernel)).mpr ?_⟩
  intro x hx
  simp only [List.mem_cons, List.not_mem_nil, or_false] at hx
  rcases hx with rfl | rfl
  · have hrefused : ¬ (encode 63 (.tuple [.other "set"])).error = none := by decide +kernel
    rw [Intact, if_neg hrefused]
    exact .inr ⟨_, rfl, trivial, by decide⟩
  · exact (fits_zigzag_iff 7).mp (fits_of_le (by decide))

/-- The integer encoded before the unsupported argument stays in the buffer and comes back as an
argument. -/
theorem partlyEncodedArgs_not_restored :
    ∃ b, dumps partlyEncodedArgs.1 = .ok b ∧
      ¬ ∃ v, loads b = .ok v ∧ v.canon = restored (maxDepth + 1) partlyEncodedArgs.1 := by
  refine ⟨header ++ [6, 2, 9, 4, 10, 86, 97, 108, 117, 101, 69, 114, 114, 111, 114, 7, 2, 3, 2, 4,
    1, 120, 3, 14], by decide +kernel, ?_⟩
  rintro ⟨v, hloads, hv⟩
  have hintact := intact_of_loads partlyEncodedArgs (by decide +kernel) hloads hv _
    List.mem_cons_self
  have hrefused : ¬ (encode 63 (.tuple [.int 1, .other "set"])).error = none := by decide +kernel
  rw [Intact, if_neg hrefused] at hintact
  rcases hintact with hmany | ⟨x, hone, -⟩
  · exact absurd hmany (by decide)
  · cases hone

end Cygnus.Queue
