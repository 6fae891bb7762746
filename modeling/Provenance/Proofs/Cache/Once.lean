import Mathlib.Data.Nat.Pairing
import Provenance.Proofs.Cache.Progress

/-!
# A compiler is downloaded once

What calls that run side by side promise about downloads: one at a time for each version, none for what
is there, and whoever comes or waits while a version gets installed ends with its path.
-/

namespace Provenance.Cache

variable {c : Cache}

/-- What is told of downloads at a point of a run, which may go on from there in any way. -/
structure DownloadsOnce (c : Cache) (disk : Disk) (moves : List Move) : Prop where
  /-- At most one call about a version looks for its compiler on the disk, downloads it or installs
  it. -/
  alone : ∀ (i j : Nat) (x y : Call), ((Crowd.start disk).run c moves).calls[i]? = some x →
    ((Crowd.start disk).run c moves).calls[j]? = some y → x.version = y.version →
    x.stage.isInstalling = true → y.stage.isInstalling = true → i = j
  /-- No call has started two downloads. -/
  single : ((Crowd.start disk).history c moves).Pairwise fun a b =>
    ∀ (i : Nat) (v w : String), a = .started i v → b ≠ .started i w
  /-- A download starts only if none of its version has ended in an installed file and no such file is
  on the disk. -/
  needed : ∀ (move : Move) (i : Nat) (v : String),
    ((Crowd.start disk).run c moves).event? c move = some (.started i v) →
    (∀ j, .installed j v ∉ (Crowd.start disk).history c moves) ∧
      ((Crowd.start disk).run c moves).shared.disk.exists? (c.path v) = .ok false
  /-- Once a version is installed, calls about it that have yet to get hold of its lock, or to come, start
  no download, and have no other result than its path. -/
  served : ∀ (j : Nat) (v : String), .installed j v ∈ (Crowd.start disk).history c moves →
    ∀ i : Nat, (∀ x : Call, ((Crowd.start disk).run c moves).calls[i]? = some x → x.stage.isEarly = true) →
    ∀ more, (∀ move ∈ more, move.isAbandonment = false) →
    ∀ x : Call, ((Crowd.start disk).run c (moves ++ more)).calls[i]? = some x → x.version = v →
      (∀ w, .started i w ∉ (Crowd.start disk).history c (moves ++ more)) ∧
        ∀ result, x.stage.result? = some result → result = .ok (c.path v)
  /-- Each of them comes to its end, if every call is advanced again and again. -/
  answered : ∀ (j : Nat) (v : String), .installed j v ∈ (Crowd.start disk).history c moves →
    ∀ i : Nat, (∀ x : Call, ((Crowd.start disk).run c moves).calls[i]? = some x → x.stage.isEarly = true) →
    ∀ schedule, Fair schedule → (∀ n, (schedule n).isAbandonment = false) →
    ∀ (n : Nat) (x : Call), (((Crowd.start disk).run c moves).after c schedule n).calls[i]? = some x →
      x.version = v →
      ∃ m, (((Crowd.start disk).run c moves).after c schedule m).calls[i]?
        = some (⟨v, .done (.ok (c.path v))⟩ : Call)

/-- Calls side by side download each compiler once. -/
theorem downloadsOnce_run (disk : Disk) (moves : List Move) : DownloadsOnce c disk moves where
  alone i j x y hi hj hversion hx hy := by
    obtain ⟨k, hk⟩ := Stage.isSome_held?_of_isInstalling hx
    obtain ⟨l, hl⟩ := Stage.isSome_held?_of_isInstalling hy
    exact (LocksMatch.run disk moves).holder_unique hi hj hversion.symm hk hl
  single := Crowd.pairwise_started disk moves
  needed move i v hstarted := by
    constructor
    · intro j hinstalled
      have hhas := Crowd.hasInstalled_of_installed hinstalled
      exact hhas.not_started (.run disk moves) (.run disk moves) hstarted
    · obtain ⟨lock, -, -, hmissing⟩ := Crowd.started_cases hstarted
      exact hmissing
  served j v hinstalled i hearly more hmore x hx hversion := by
    obtain ⟨hserved, hnever⟩ := Crowd.served_run hinstalled hearly hmore hx hversion
    refine ⟨hnever, ?_⟩
    intro result hresult
    rw [hserved.result hresult, hversion]
  answered j v hinstalled i hearly schedule hfair hgoes n x hx hversion := by
    have hrun : ∀ m, ((Crowd.start disk).run c moves).after c schedule m
        = (Crowd.start disk).run c (moves ++ (List.range m).map schedule) :=
      fun m => (Crowd.run_append _ _ _ _).symm
    have hmore : ∀ m, ∀ move ∈ (List.range m).map schedule, move.isAbandonment = false := by
      intro m move hmove
      obtain ⟨k, -, rfl⟩ := List.mem_map.1 hmove
      exact hgoes k
    have hhas : (((Crowd.start disk).run c moves).after c schedule n).HasInstalled v := by
      rw [hrun]
      refine Crowd.hasInstalled_of_installed (i := j) ?_
      rw [Crowd.history_append]
      exact List.mem_append_left _ hinstalled
    obtain ⟨m, hm, hknown⟩ := hfair.exists_known hhas
    have hsettled : (((Crowd.start disk).run c moves).after c schedule m).Settled c v := by
      rw [hrun] at hknown ⊢
      exact ⟨.run disk _, .run disk _, hknown⟩
    obtain ⟨y, hy, hsame⟩ := Crowd.exists_getElem?_after hx hm
    refine hfair.exists_done hsettled hy (hsame.trans hversion) ?_
    intro k z hz hzversion
    rw [hrun] at hz ⊢
    exact (Crowd.served_run hinstalled hearly (hmore k) hz hzversion).1

/-- The first call downloads and installs, while a second one waits, which then ends with the path. -/
theorem downloadsOnce_run_waiting :
    let c : Cache := ⟨"/cache", "http://host/"⟩
    let disk : Disk := ⟨[(["cache"], .directory)], []⟩
    let moves : List Move :=
      [.arrive "v1"] ++ List.replicate 5 (.advance 0 none) ++ [.arrive "v1"] ++
        List.replicate 2 (.advance 1 none) ++ [.reply 0 (.ok ⟨200, none, [1, 2], true⟩)] ++
        List.replicate 3 (.advance 0 none)
    let crowd := (Crowd.start disk).run c moves
    (Crowd.start disk).history c moves = [.started 0 "v1", .installed 0 "v1"] ∧
      crowd.calls[1]?.map (·.stage.isEarly) = some true ∧
      ∃ m, (crowd.after c (fun n => .advance n.unpair.1 none) m).calls[1]?
        = some ⟨"v1", .done (.ok "/cache/v1")⟩ := by
  intro c disk moves crowd
  have hhistory : (Crowd.start disk).history c moves = [.started 0 "v1", .installed 0 "v1"] := by
    decide +kernel
  have hearly : crowd.calls[1]?.map (·.stage.isEarly) = some true := by decide +kernel
  have hversion : crowd.calls[1]?.map (·.version) = some "v1" := by decide +kernel
  have hpath : c.path "v1" = "/cache/v1" := by decide +kernel
  have hfair : Fair fun n => .advance n.unpair.1 none := by
    intro call n
    exact ⟨Nat.pair call n, Nat.right_le_pair call n, none, by simp⟩
  have honce : DownloadsOnce c disk moves := downloadsOnce_run disk moves
  refine ⟨hhistory, hearly, ?_⟩
  obtain ⟨x, hx, hxEarly⟩ := Option.map_eq_some_iff.1 hearly
  rw [hx] at hversion
  rw [← hpath]
  refine honce.answered 0 "v1" ?_ 1 ?_ _ hfair (fun _ => rfl) 0 x ?_ (Option.some.inj hversion)
  · rw [hhistory]
    simp
  · intro y hy
    obtain rfl : x = y := Option.some.inj (hx.symm.trans hy)
    exact hxEarly
  · rw [Crowd.after_zero]
    exact hx

end Provenance.Cache
