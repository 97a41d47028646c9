import Approval.Proofs.Store.Verbatim
import Approval.Proofs.Yaml.Depth
import Approval.Workflow.Document

/-!
# How deep conditions of drafts nest

The value of a condition stands inside of the condition, its rule, the list of rules and the draft. So it
leaves room for all that stands around it in the row of a workflow.
-/

namespace Approval

open RecordDecoder

variable {d : Doc}

lemma Condition.depth_of_decode {c : Condition} (h : decode d = .ok c) : c.value.depth < d.depth := by
  obtain ⟨get, built, parts⟩ := exists_of_decode h
  simp only [seq_build_eq_ok_iff, map_build_eq_ok_iff] at built
  obtain ⟨_, value, ⟨_, _, ⟨_, field, rfl⟩, -, rfl⟩, last, rfl⟩ := built
  rcases eq_or_exists_of_orElse last with rfl | ⟨part, found, decoded⟩
  · -- A condition has a field at least.
    obtain ⟨part, found, -⟩ := exists_of_required field
    exact Nat.zero_lt_of_lt (parts _ part found)
  · exact Nat.lt_of_le_of_lt (Decoder.depth_of_json decoded) (parts _ part found)

lemma Rule.depth_of_decode {r : Rule} (h : decode d = .ok r) {v : Json} (named : r.value? = some v) :
    v.depth + 1 < d.depth := by
  obtain ⟨get, built, parts⟩ := exists_of_decode h
  simp only [seq_build_eq_ok_iff, map_build_eq_ok_iff] at built
  obtain ⟨_, _, ⟨_, condition, ⟨_, _, ⟨_, _, ⟨_, -, rfl⟩, -, rfl⟩, -, rfl⟩, fourth, rfl⟩, -, rfl⟩ := built
  obtain ⟨c, rfl, rfl⟩ := Option.map_eq_some_iff.mp named
  obtain ⟨part, found, decoded⟩ := exists_of_orNone fourth
  have inside := Condition.depth_of_decode decoded
  have within := parts _ part found
  omega

namespace Draft

lemma depth_of_decode {draft : Draft} (h : decode d = .ok draft) {v : Json}
    (among : v ∈ draft.rules.filterMap Rule.value?) : v.depth + 4 ≤ d.depth := by
  obtain ⟨get, built, parts⟩ := exists_of_decode h
  simp only [seq_build_eq_ok_iff, map_build_eq_ok_iff] at built
  obtain ⟨_, rules, ⟨_, _, ⟨_, _, ⟨_, _, ⟨_, -, rfl⟩, -, rfl⟩, -, rfl⟩, -, rfl⟩, last, rfl⟩ := built
  obtain ⟨r, mem, named⟩ := List.mem_filterMap.mp among
  rcases eq_or_exists_of_orElse last with rfl | ⟨part, found, decoded⟩
  · cases mem
  · obtain ⟨item, rule, inside⟩ := Decoder.exists_of_list decoded mem
    have deep := Rule.depth_of_decode rule named
    have within := parts _ part found
    omega

/-- The conditions of a draft that is handed in as JSON fit into the row of a workflow. -/
lemma fits_of_decodeText {s : String} {draft : Draft} (h : decode.decodeText s = .ok draft) :
    ∀ v ∈ draft.rules.filterMap Rule.value?, v.Fits 3 := by
  intro v among
  obtain ⟨d, decoded, bound⟩ := Decoder.exists_doc_of_decodeText h
  have deep := depth_of_decode decoded among
  unfold Json.Fits
  omega

/-- So do those of a draft that is handed in as a document. -/
lemma fits_of_ofDocument {s : String} {draft : Draft} (h : ofDocument s = .ok draft) :
    ∀ v ∈ draft.rules.filterMap Rule.value?, v.Fits 3 := by
  intro v among
  unfold ofDocument at h
  split at h
  · rename_i read decoded
    obtain ⟨-, -, made⟩ := Except.bind_eq_ok_iff.mp h
    obtain rfl := Except.ok.inj made
    obtain ⟨d, found, decoded⟩ := Option.map_eq_some_iff.mp decoded
    have deep := depth_of_decode decoded (v := v) (by
      simpa [normalize, List.filterMap_map, Function.comp_def, Rule.value?] using among)
    have bound : d.depth ≤ 128 := Yaml.depth_of_read? found
    unfold Json.Fits Json.depthLimit
    omega
  · cases h

end Draft

end Approval
