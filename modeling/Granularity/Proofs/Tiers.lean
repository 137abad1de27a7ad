import Granularity.Proofs.Ranking
import Granularity.Proofs.Repository

namespace Granularity

theorem rankedBy_missing {l : List Issue} {k : IssueKind} (h : ∀ i ∈ l, i.kind = k ∧ i.Graded) :
    RankedBy (fun i => min i.missing.length 4) l (rank l) := by
  apply (rank_rankedBy l).congr
  intro i hi j hj
  obtain ⟨hik, hi⟩ := h i hi
  obtain ⟨hjk, hj⟩ := h j hj
  rw [hi.score, hj.score, hik, hjk, IssueKind.orderKey_score_le_iff k (by omega) (by omega)]

theorem place_le_of_graded {i j : Issue} (hi : i.Graded) (hj : j.Graded)
    (h : orderKey j.score ≤ orderKey i.score) : i.kind.place ≤ j.kind.place := by
  rw [hi.score, hj.score] at h
  exact IssueKind.place_le_of_orderKey_le (by omega) (by omega) hi.min_eq_zero hj.min_eq_zero h

theorem eq_blocks {l : List Issue} (h : l.Pairwise fun i j => i.kind.place ≤ j.kind.place) :
    l = IssueKind.all.flatMap fun k => l.filter (·.kind = k) := by
  symm
  apply flatMap_filter_of_rising IssueKind.place
  · decide
  · exact fun i _ => i.kind.mem_all
  · exact h

/-- Ranked in one block for each kind, and there by falling number of missing dimensions up to four. -/
structure RankedInBlocks (found ranked : List Issue) : Prop where
  placed : ∀ i ∈ ranked, i.Placed
  blocks : ranked = IssueKind.all.flatMap fun k => ranked.filter (·.kind = k)
  byMissing : ∀ k, RankedBy (fun i => min i.missing.length 4) (found.filter (·.kind = k)) (ranked.filter (·.kind = k))

theorem rank_rankedInBlocks {l : List Issue} (h : ∀ i ∈ l, i.Graded) : RankedInBlocks l (rank l) := by
  have hrank := rank_rankedBy l
  have hranked : ∀ i ∈ rank l, i.Graded := fun i hi => h i (hrank.mem_iff.1 hi)
  refine ⟨fun i hi => (hranked i hi).placed, eq_blocks ?_, fun k => ?_⟩
  · exact hrank.falling.imp_of_mem fun hi hj hle => place_le_of_graded (hranked _ hi) (hranked _ hj) hle
  · rw [rank_filter]
    apply rankedBy_missing (k := k)
    intro i hi
    obtain ⟨hi, hkind⟩ := List.mem_filter.1 hi
    exact ⟨by simpa using hkind, h i hi⟩

namespace Analysis

theorem run_rankedInBlocks (t : FileTree) (root : Path) (hr : t.pathExists root = true) (s : Settings)
    (hs : s.weights = .default) :
    ∃ a, run t root s = .ok a ∧
      RankedInBlocks (scoreAll .default (Detector.run (Detector.all s.conventions) a.results.models))
        a.results.issues := by
  obtain ⟨a, hrun, hresults⟩ := run_ok s hr
  refine ⟨a, hrun, ?_⟩
  rw [hresults, Stages.results, hs]
  apply rank_rankedInBlocks
  intro i hi
  obtain ⟨j, hj, rfl⟩ := List.mem_map.1 hi
  exact (run_fitsKind s.conventions _ j hj).graded

theorem Holds.findings_storeSource {s : Settings} (h : Holds (pairTree storeSource) ⟨"."⟩ s storeSource)
    (hc : s.conventions = .default) :
    (Detector.run (Detector.all s.conventions) (runStages (pairTree storeSource) ⟨"."⟩ s).models).map Issue.finding =
      [⟨.inputLoss, .high, "StoreRow", "rows", ["channelId"]⟩,
        ⟨.crossAccess, .medium, "StoreRow", "rows", ["skuId"]⟩] := by
  obtain ⟨recordPath, containerPath, hmodels⟩ := h.models_eq hc (by decide)
  rw [hmodels, Detector.run_single]
  exact checks_storeSource recordPath containerPath

theorem run_rankedInBlocks_storeSource :
    ((pairTree storeSource).pathExists ⟨"."⟩ = true ∧ Settings.default.weights = .default) ∧
      ∃ a, run (pairTree storeSource) ⟨"."⟩ .default = .ok a ∧
        (Detector.run (Detector.all .default) a.results.models).map Issue.finding =
          [⟨.inputLoss, .high, "StoreRow", "rows", ["channelId"]⟩,
            ⟨.crossAccess, .medium, "StoreRow", "rows", ["skuId"]⟩] ∧
        RankedInBlocks (scoreAll .default (Detector.run (Detector.all .default) a.results.models))
          a.results.issues := by
  have hholds := holds_pairTree storeSource
  obtain ⟨a, hrun, hblocks⟩ := run_rankedInBlocks _ _ hholds.found .default rfl
  obtain ⟨b, hrun', hresults⟩ := run_ok .default hholds.found
  obtain rfl : b = a := Except.ok.inj (hrun'.symm.trans hrun)
  refine ⟨⟨hholds.found, rfl⟩, b, hrun, ?_, hblocks⟩
  rw [hresults]
  exact hholds.findings_storeSource rfl

end Analysis

end Granularity
