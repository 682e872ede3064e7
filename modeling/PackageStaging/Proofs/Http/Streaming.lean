/-
# Sending files

While the files of a form are sent, `Transmission.Sound` is kept by every read, whatever number of
bytes it returns: nothing of the files is lost, and the reports are the running sums (`reports`) of
the sizes of all chunks.  The end is reached because every read gives a chunk or ends a stream
(`Transmission.exists_sound`).  What has come of a body whose streams have all ended is
`Transmission.Whole`.
-/
import Mathlib.Tactic.Lemma
import Mathlib.Tactic.SplitIfs
import PackageStaging.Http.Transmission

namespace PackageStaging.Http

/-! ### Reports -/

/-- What is to be reported while chunks of these sizes are sent behind `sent` bytes. -/
def reports (total sent : Nat) : List Nat → List SendingProgress
  | [] => []
  | size :: sizes => ⟨sent + size, total⟩ :: reports total (sent + size) sizes

section

variable {total sent : Nat} {chunks : List Bytes}

lemma reports_concat (total sent : Nat) (chunks : List Bytes) (chunk : Bytes) :
    reports total sent ((chunks ++ [chunk]).map List.length) =
      reports total sent (chunks.map List.length) ++
        [⟨sent + (chunks ++ [chunk]).flatten.length, total⟩] := by
  induction chunks generalizing sent with
  | nil => simp [reports]
  | cons first chunks ih =>
    rw [List.cons_append, List.map_cons, List.map_cons, reports, reports, ih, List.flatten_cons,
      List.length_append, Nat.add_assoc]
    rfl

lemma mem_reports {r : SendingProgress} (hr : r ∈ reports total sent (chunks.map List.length))
    (hchunks : ∀ chunk ∈ chunks, 0 < chunk.length) :
    sent < r.sent ∧ r.sent ≤ sent + chunks.flatten.length ∧ r.total = total := by
  induction chunks generalizing sent with
  | nil => exact nomatch hr
  | cons chunk chunks ih =>
    have hchunk := hchunks chunk (.head _)
    rw [List.flatten_cons, List.length_append]
    rw [List.map_cons, reports] at hr
    rcases List.mem_cons.1 hr with rfl | hr
    · exact ⟨Nat.lt_add_of_pos_right hchunk, by dsimp only; omega, rfl⟩
    · obtain ⟨hlt, hle, htotal⟩ := ih hr fun x hx => hchunks x (.tail _ hx)
      exact ⟨by omega, by omega, htotal⟩

/-- The sums ascend if no chunk is empty. -/
lemma reports_ascend (total sent : Nat) (hchunks : ∀ chunk ∈ chunks, 0 < chunk.length) :
    (reports total sent (chunks.map List.length)).Pairwise fun r r' => r.sent < r'.sent := by
  induction chunks generalizing sent with
  | nil => exact .nil
  | cons chunk chunks ih =>
    have hlater : ∀ x ∈ chunks, 0 < x.length := fun x hx => hchunks x (.tail _ hx)
    exact List.pairwise_cons.2 ⟨fun r hr => (mem_reports hr hlater).1, ih _ hlater⟩

lemma getLast?_reports (total sent : Nat) (chunks : List Bytes) :
    (reports total sent (chunks.map List.length)).getLast? =
      if chunks = [] then none else some ⟨sent + chunks.flatten.length, total⟩ := by
  rcases List.eq_nil_or_concat chunks with rfl | ⟨before, chunk, rfl⟩
  · rfl
  · rw [List.concat_eq_append, reports_concat, List.getLast?_concat, if_neg (by simp)]

end

/-! ### Reading -/

/-- The number of reads that are enough for files of which this is left. -/
def readsFor (rests : List Bytes) : Nat := rests.flatten.length + rests.length

/-- A chunk is not empty, fits into the buffer, and is what comes next. -/
lemma chunk_of_ne_nil {rest : Bytes} (h : rest ≠ []) (ready : Nat) :
    rest.take (readSize ready) ≠ [] ∧ (rest.take (readSize ready)).length ≤ bufferSize := by
  have hpos : 0 < readSize ready := Nat.lt_min.2 ⟨by decide, Nat.le_max_left _ _⟩
  refine ⟨?_, Nat.le_trans (List.length_take_le _ _) (Nat.min_le_left _ _)⟩
  rw [← List.length_pos_iff, List.length_take]
  exact Nat.lt_min.2 ⟨hpos, List.length_pos_iff.2 h⟩

/-! ### The body of a form -/

/-- The size of files, each counted as often as it stands in the list. -/
def volume (disk : Path → Bytes) (files : List Path) : Nat := (files.flatMap disk).length

lemma volume_cons (disk : Path → Bytes) (f : Path) (files : List Path) :
    volume disk (f :: files) = (disk f).length + volume disk files := by
  rw [volume, List.flatMap_cons, List.length_append, volume]

namespace Transmission

/-- All chunks, in the order in which they were sent. -/
def chunks (t : Transmission) : List Bytes := t.finished.flatten ++ t.current

/-- The files whose streams have not ended, of which this is left: what was sent of the first one
stands in front of that. -/
def pending (t : Transmission) : List Bytes → List Bytes
  | [] => []
  | rest :: later => (t.current.flatten ++ rest) :: later

variable {contents rests later : List Bytes} {rest chunk : Bytes} {total : Nat}
  {t : Transmission} {p : Path} {ps : List Path}

/-! ### Nothing is lost -/

/-- What holds of a body that is being sent, when this is left of its files. -/
structure Sound (contents : List Bytes) (total : Nat) (rests : List Bytes) (t : Transmission) :
    Prop where
  contents : t.finished.map List.flatten ++ t.pending rests = contents
  streams : t.streams.length = rests.length
  sized : ∀ chunk ∈ t.chunks, 0 < chunk.length ∧ chunk.length ≤ bufferSize
  sent : t.sent.toNat = t.chunks.flatten.length
  calls : t.calls = reports total 0 (t.chunks.map List.length)
  idle : rests = [] → t.current = []

lemma sound_start (disk : Path → Bytes) (files : List Path) (total : Nat) :
    Sound (files.map disk) total (files.map disk) (start files) where
  contents := by
    cases files with
    | nil => rfl
    | cons f files => rfl
  streams := by rw [start, List.length_map]
  sized _ h := nomatch h
  sent := rfl
  calls := rfl
  idle _ := rfl

/-- The chunks and what is left are all files in a row. -/
lemma Sound.flatten (ht : Sound contents total rests t) :
    t.chunks.flatten ++ rests.flatten = contents.flatten := by
  rw [← ht.contents]
  cases rests with
  | nil => simp [chunks, pending, ht.idle rfl, List.flatten_flatten]
  | cons rest later => simp [chunks, pending, List.flatten_flatten]

@[simp] lemma chunks_finish (t : Transmission) (ps : List Path) :
    (t.finish ps).chunks = t.chunks := by
  simp [finish, chunks]

@[simp] lemma chunks_advance (total : Nat) (t : Transmission) (chunk : Bytes) :
    (t.advance total chunk).chunks = t.chunks ++ [chunk] := by
  simp [advance, chunks]

/-- The end of a file. -/
lemma Sound.finish (ht : Sound contents total ([] :: later) t) (hs : t.streams = p :: ps) :
    Sound contents total later (t.finish ps) where
  contents := by
    rw [← ht.contents]
    cases later with
    | nil => simp [pending, Transmission.finish]
    | cons next later => simp [pending, Transmission.finish]
  streams := by
    have hlength := ht.streams
    rw [hs] at hlength
    exact Nat.succ.inj hlength
  sized := by
    rw [chunks_finish]
    exact ht.sized
  sent := by
    rw [chunks_finish]
    exact ht.sent
  calls := by
    rw [chunks_finish]
    exact ht.calls
  idle _ := rfl

/-- One more chunk of a file. -/
lemma Sound.advance (ht : Sound contents total ((chunk ++ rest) :: later) t)
    (hbound : contents.flatten.length < UInt64.size) (hne : chunk ≠ [])
    (hsize : chunk.length ≤ bufferSize) :
    Sound contents total (rest :: later) (t.advance total chunk) := by
  have hchunks := chunks_advance total t chunk
  -- the counter does not overflow, because no more than all files is counted
  have hcounter : (t.sent + UInt64.ofNat chunk.length).toNat =
      (t.chunks ++ [chunk]).flatten.length := by
    have hrow := congrArg List.length ht.flatten
    rw [List.flatten_cons, List.length_append, List.length_append, List.length_append] at hrow
    have hless : t.chunks.flatten.length + chunk.length < 2 ^ 64 := by
      have hall : contents.flatten.length < 2 ^ 64 := hbound
      omega
    rw [UInt64.toNat_add, ht.sent, UInt64.toNat_ofNat', Nat.add_mod_mod, Nat.mod_eq_of_lt hless]
    simp
  refine ⟨?_, ht.streams, fun c hc => ?_, ?_, ?_, fun h => nomatch h⟩
  · rw [← ht.contents]
    simp [pending, Transmission.advance]
  · rw [hchunks] at hc
    rcases List.mem_append.1 hc with hc | hc
    · exact ht.sized c hc
    · rw [List.mem_singleton.1 hc]
      exact ⟨List.length_pos_iff.2 hne, hsize⟩
  · rw [hchunks]
    exact hcounter
  · rw [hchunks, reports_concat, ← ht.calls, Nat.zero_add, ← hcounter]
    rfl

lemma streams_ne_nil (ht : Sound contents total (rest :: later) t) :
    ∃ p ps, t.streams = p :: ps := by
  refine List.exists_cons_of_length_pos ?_
  rw [ht.streams]
  exact Nat.succ_pos _

/-- Whatever numbers of bytes the reads return, the body stays sound; it has been sent if there were
reads enough. -/
lemma exists_sound (ht : Sound contents total rests t)
    (hbound : contents.flatten.length < UInt64.size) (sizes : List Nat) :
    ∃ rests', Sound contents total rests' ((readAll rests sizes).foldl (receive total) t) ∧
      (readsFor rests ≤ sizes.length → rests' = []) := by
  fun_induction readAll rests sizes generalizing t with
  | case1 sizes => exact ⟨[], ht, fun _ => rfl⟩
  | case2 rest later =>
    refine ⟨_, ht, fun henough => absurd henough ?_⟩
    rw [readsFor, List.length_cons, List.length_nil]
    omega
  | case3 later ready sizes ih =>
    -- the first stream ends
    obtain ⟨p, ps, hs⟩ := streams_ne_nil ht
    obtain ⟨rests', hsound, henough⟩ := ih (ht.finish hs)
    have hstep : t.receive total [] = t.finish ps := by
      rw [receive, hs]
      exact if_pos rfl
    rw [List.foldl_cons, hstep]
    refine ⟨rests', hsound, fun hreads => henough ?_⟩
    simp only [readsFor, List.flatten_cons, List.nil_append, List.length_cons] at hreads ⊢
    omega
  | case4 rest later ready sizes hne ih =>
    -- the first stream gives a chunk
    obtain ⟨p, ps, hs⟩ := streams_ne_nil ht
    obtain ⟨hchunk, hsize⟩ := chunk_of_ne_nil hne ready
    have hcut := List.take_append_drop (readSize ready) rest
    rw [← hcut] at ht
    obtain ⟨rests', hsound, henough⟩ := ih (ht.advance hbound hchunk hsize)
    have hstep : t.receive total (rest.take (readSize ready)) =
        t.advance total (rest.take (readSize ready)) := by
      rw [receive, hs]
      exact if_neg hchunk
    rw [List.foldl_cons, hstep]
    refine ⟨rests', hsound, fun hreads => henough ?_⟩
    have hpos := List.length_pos_iff.2 hchunk
    have hlength := congrArg List.length hcut
    simp only [readsFor, List.flatten_cons, List.length_append, List.length_cons]
      at hreads hlength ⊢
    omega

/-! ### The whole body -/

/-- What has come of a body that has been sent as a whole. -/
structure Whole (disk : Path → Bytes) (files : List Path) (t : Transmission) : Prop where
  /-- The chunks of each file in a row are the file. -/
  contents : t.finished.map List.flatten = files.map disk
  /-- No chunk is empty or larger than a read can be, so an empty file has none. -/
  sized : ∀ chunks ∈ t.finished, ∀ chunk ∈ chunks, 0 < chunk.length ∧ chunk.length ≤ bufferSize
  silent : ∀ chunks ∈ t.finished, chunks.flatten = [] → chunks = []
  /-- After each chunk it was reported how much of all files had been sent. -/
  calls : t.calls = reports (volume disk files) 0 (t.finished.flatten.map List.length)
  ascend : t.calls.Pairwise fun r r' => r.sent < r'.sent
  within : ∀ r ∈ t.calls, r.sent ≤ volume disk files ∧ r.total = volume disk files
  /-- The last report is that everything was sent. -/
  last : t.calls.getLast? =
    if volume disk files = 0 then none else some ⟨volume disk files, volume disk files⟩

/-- Chunks that are not empty make up a file that is not empty. -/
lemma eq_nil_of_flatten {chunks : List Bytes} (hpos : ∀ chunk ∈ chunks, 0 < chunk.length)
    (h : chunks.flatten = []) : chunks = [] := by
  refine List.eq_nil_iff_forall_not_mem.2 fun chunk hchunk => ?_
  have hlength := hpos chunk hchunk
  rw [List.flatten_eq_nil_iff.1 h chunk hchunk] at hlength
  exact absurd hlength (Nat.lt_irrefl 0)

lemma Sound.whole {disk : Path → Bytes} {files : List Path}
    (ht : Sound (files.map disk) (volume disk files) [] t) : Whole disk files t := by
  have hchunks : t.chunks = t.finished.flatten := by
    rw [chunks, ht.idle rfl, List.append_nil]
  have hsized : ∀ chunks ∈ t.finished, ∀ chunk ∈ chunks,
      0 < chunk.length ∧ chunk.length ≤ bufferSize := by
    intro chunks hchunks' chunk hchunk
    refine ht.sized chunk ?_
    rw [hchunks]
    exact List.mem_flatten.2 ⟨chunks, hchunks', hchunk⟩
  have hpos : ∀ chunk ∈ t.chunks, 0 < chunk.length := fun chunk hchunk =>
    (ht.sized chunk hchunk).1
  have hrow : t.chunks.flatten.length = volume disk files := by
    have hall := ht.flatten
    rw [List.flatten_nil, List.append_nil, ← List.flatMap_def] at hall
    rw [hall, volume]
  have hnone : t.chunks = [] ↔ volume disk files = 0 := by
    rw [← hrow, List.length_eq_zero_iff]
    exact ⟨fun h => by rw [h, List.flatten_nil], eq_nil_of_flatten hpos⟩
  refine ⟨?_, hsized, fun chunks hc => eq_nil_of_flatten fun chunk hchunk =>
    (hsized chunks hc chunk hchunk).1, ?_, ?_, fun r hr => ?_, ?_⟩
  · have hcontents := ht.contents
    rwa [pending, List.append_nil] at hcontents
  · rw [ht.calls, hchunks]
  · rw [ht.calls]
    exact reports_ascend _ _ hpos
  · rw [ht.calls] at hr
    obtain ⟨-, hle, htotal⟩ := mem_reports hr hpos
    rw [hrow, Nat.zero_add] at hle
    exact ⟨hle, htotal⟩
  · rw [ht.calls, getLast?_reports, hrow, Nat.zero_add]
    simp only [hnone]

/-- The streams of all files end if there are reads enough, and when they have ended all files were
sent. -/
theorem ofReads_readAll {disk : Path → Bytes} {files : List Path}
    (hbound : volume disk files < UInt64.size) (sizes : List Nat) :
    let t := ofReads (volume disk files) files (readAll (files.map disk) sizes)
    (volume disk files + files.length ≤ sizes.length → t.streams = []) ∧
      (t.streams = [] → t.Whole disk files) := by
  have hvolume : (files.map disk).flatten.length = volume disk files := by
    rw [← List.flatMap_def, volume]
  obtain ⟨rests, hsound, henough⟩ :=
    exists_sound (sound_start disk files (volume disk files)) (hvolume ▸ hbound) sizes
  rw [readsFor, hvolume, List.length_map] at henough
  have hstreams := hsound.streams
  refine ⟨fun hreads => ?_, fun hend => ?_⟩
  · rw [henough hreads] at hstreams
    exact List.length_eq_zero_iff.1 hstreams
  · rw [ofReads] at hend
    rw [hend] at hstreams
    obtain rfl := List.length_eq_zero_iff.1 hstreams.symm
    exact hsound.whole

end Transmission

end PackageStaging.Http
