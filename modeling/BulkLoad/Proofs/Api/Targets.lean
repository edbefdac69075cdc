import BulkLoad.Proofs.Api.Paths

/-!
# Paths that the service sees

On its way to the service a path loses its segments `.` and `..`, with what the latter take along.
The words of an operation are none of these, and percent-encoding turns no other name into one. So a
path arrives as it was built just when none of its names is a dot segment (`target_eq_path_iff`).
-/

namespace BulkLoad.Api

open Text

/-! ## Dot segments -/

/-- A segment that does not stay in a path. -/
def IsDot (segment : String) : Prop :=
  segment = "." ∨ segment = ".."

instance : DecidablePred IsDot :=
  fun _ => inferInstanceAs (Decidable (_ ∨ _))

/-- A name that is written as a dot segment is that segment. -/
theorem encode_eq_of_isDot {n : String} (h : IsDot (Percent.encode n)) : Percent.encode n = n := by
  have hone : Percent.encode "." = "." := by decide +kernel
  have htwo : Percent.encode ".." = ".." := by decide +kernel
  rcases h with h | h
  · obtain rfl : n = "." := Percent.encode_injective (h.trans hone.symm)
    exact hone
  · obtain rfl : n = ".." := Percent.encode_injective (h.trans htwo.symm)
    exact htwo

theorem Operation.not_isDot_of_mem_words {operation : Operation} {w : String}
    (h : w ∈ operation.opening ++ operation.closing) : ¬ IsDot w := by
  revert w
  cases operation <;> decide

namespace Endpoint

variable {e : Endpoint} {before segments : List String} {segment piece : String}

/-- A dot segment of a path is one of the names. -/
theorem mem_names_of_isDot (hp : piece ∈ pieces e.path) (hd : IsDot piece) : piece ∈ e.names := by
  rw [pieces_path, map_text_segments, List.append_assoc, List.mem_cons, List.mem_append,
    List.mem_append] at hp
  rcases hp with rfl | hp | hp | hp
  · exact absurd hd (by decide)
  · exact absurd hd (Operation.not_isDot_of_mem_words (List.mem_append_left _ hp))
  · obtain ⟨n, hn, rfl⟩ := List.mem_map.1 hp
    rw [encode_eq_of_isDot hd]
    exact hn
  · exact absurd hd (Operation.not_isDot_of_mem_words (List.mem_append_right _ hp))

/-! ## Resolving them -/

theorem resolve_of_forall (h : ∀ segment ∈ segments, ¬ IsDot segment) :
    resolve before segments = before.reverse ++ segments := by
  induction segments generalizing before with
  | nil => exact (List.append_nil _).symm
  | cons segment rest ih =>
    obtain ⟨hs, hrest⟩ := List.forall_mem_cons.1 h
    rw [resolve, if_neg fun he => hs (.inr he), if_neg fun he => hs (.inl he), ih hrest,
      List.reverse_cons, List.append_assoc, List.singleton_append]

/-- No dot segments are left, and no other segments come in than an empty one. -/
theorem mem_resolve (h : segment ∈ resolve before segments) :
    segment = "" ∨ segment ∈ before ∨ segment ∈ segments ∧ ¬ IsDot segment := by
  fun_induction resolve before segments with
  | case1 before => exact .inr (.inl (List.mem_reverse.1 h))
  | case2 before rest ih =>
    rcases ih h with he | hb | ⟨hr, hd⟩
    · exact .inl he
    · split at hb
      · rcases List.mem_cons.1 hb with he | hb
        · exact .inl he
        · exact .inr (.inl (List.mem_of_mem_tail hb))
      · exact .inr (.inl (List.mem_of_mem_tail hb))
    · exact .inr (.inr ⟨List.mem_cons_of_mem _ hr, hd⟩)
  | case3 before rest hne ih =>
    rcases ih h with he | hb | ⟨hr, hd⟩
    · exact .inl he
    · split at hb
      · exact (List.mem_cons.1 hb).imp_right .inl
      · exact .inr (.inl hb)
    · exact .inr (.inr ⟨List.mem_cons_of_mem _ hr, hd⟩)
  | case4 before other rest htwo hone ih =>
    rcases ih h with he | hb | ⟨hr, hd⟩
    · exact .inl he
    · rcases List.mem_cons.1 hb with rfl | hb
      · exact .inr (.inr ⟨List.mem_cons_self, not_or.2 ⟨hone, htwo⟩⟩)
      · exact .inr (.inl hb)
    · exact .inr (.inr ⟨List.mem_cons_of_mem _ hr, hd⟩)

theorem pieces_target (e : Endpoint) :
    pieces e.target = "" :: resolve [] (e.segments.map Segment.text) := by
  refine pieces_join fun segment hs => ?_
  rcases mem_resolve hs with rfl | hb | ⟨hm, -⟩
  · decide
  · simp at hb
  · exact slash_not_mem_text hm

/-- The service sees the path that was built just when there are no dot segments in it. -/
theorem target_eq_path_iff (e : Endpoint) :
    e.target = e.path ↔ ∀ piece ∈ pieces e.path, ¬ IsDot piece := by
  refine ⟨fun h piece hp hd => ?_, fun h => ?_⟩
  · rw [← h, pieces_target] at hp
    rcases List.mem_cons.1 hp with rfl | hp
    · exact absurd hd (by decide)
    · rcases mem_resolve hp with rfl | hb | ⟨-, hn⟩
      · exact absurd hd (by decide)
      · simp at hb
      · exact hn hd
  · have hsegments : ∀ segment ∈ e.segments.map Segment.text, ¬ IsDot segment := fun segment hs =>
      h segment (by rw [pieces_path]; exact List.mem_cons_of_mem _ hs)
    rw [target, resolve_of_forall hsegments, path, List.reverse_nil, List.nil_append, List.map_map]
    rfl

end Endpoint

end BulkLoad.Api
