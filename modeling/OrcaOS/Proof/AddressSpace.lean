import Mathlib
import OrcaOS.Proof.PageEntry
import OrcaOS.Specification.AddressSpace

/-!
The page tables implement the address space after every sequence of calls.
-/

namespace OrcaOS

/-- The exact entries of the tables under a grant. -/
structure TablesHold (frames : TableFrames) (grant : Grant) (tables : PageTables) : Prop where
  sameFrames : tables.frames = frames
  zeroth : tables.pageDirectory 0 = frames.firstPageTable ++ 3#12
  kernel : tables.pageDirectory 1 = 1#10 ++ 0x93#22
  program : tables.pageDirectory 32 =
    match grant.program with
    | none => 0#10 ++ 2#22
    | some processNum => BitVec.ofNat 10 (2 + processNum) ++ 0x97#22
  video : tables.pageDirectory 33 =
    if grant.video then frames.vidPageTable ++ 7#12 else 0#20 ++ 2#12
  rest : ∀ index < 1024, index ≠ 0 → index ≠ 1 → index ≠ 32 → index ≠ 33 →
    tables.pageDirectory index = 0#10 ++ 2#22
  first : ∀ index < 1024, tables.firstPageTable index =
    BitVec.ofNat 20 (if index = 0xB7 then 0xB8 else index) ++ 3#12
  videoPage : tables.vidPageTable 0 = if grant.video then 0xB8#20 ++ 7#12 else 0#20 ++ 0#12
  videoRest : ∀ index, index ≠ 0 → tables.vidPageTable index = 0#20 ++ 0#12

/-- A supervisor page is its frame with the present and the write bit. -/
theorem supervisorPage_eq (index : Nat) :
    supervisorPage (index * 0x1000) = BitVec.ofNat 20 index ++ 3#12 := by
  have address : BitVec.ofNat 32 (index * 0x1000) = BitVec.ofNat 20 index ++ 0#12 := by
    apply BitVec.eq_of_toNat_eq
    rw [BitVec.toNat_append, BitVec.toNat_ofNat, BitVec.toNat_ofNat, BitVec.toNat_ofNat]
    rw [← Nat.shiftLeft_add_eq_or_of_lt (by decide), Nat.shiftLeft_eq]
    omega
  unfold supervisorPage
  rw [address, setFlag_smallPage, setFlag_smallPage]
  congr 1

theorem pageInit_tablesHold (frames : TableFrames) :
    TablesHold frames .initial (pageInit (.zero frames)) where
  sameFrames := rfl
  zeroth := by
    change (setFlag (setFlag (setFlag 0 .rw true) .present true) .rw true ||| tableAddress _) = _
    unfold tableAddress
    have flags : setFlag (setFlag (setFlag 0 .rw true) .present true) .rw true = 0#20 ++ 3#12 := by decide
    rw [flags, BitVec.or_append, BitVec.zero_or, BitVec.or_zero]
    rfl
  kernel := by
    change setFlag (setFlag (setFlag (setFlag (setUpperAddress (setFlag 0 .rw true) 1)
      .present true) .rw true) .pcd true) .pageSize true = _
    decide
  program := rfl
  video := rfl
  rest index small notZero notOne _ _ := by
    unfold pageInit setEntry
    simp only [notZero, notOne, small, if_false, if_true]
    rfl
  first index small := by
    unfold pageInit setEntry
    dsimp only
    by_cases aliased : index = 0xB7
    · subst aliased
      exact supervisorPage_eq 0xB8
    · rw [if_neg aliased, ← supervisorPage_eq]
      split_ifs with first second third fourth
      all_goals subst_vars
      all_goals rfl
  videoPage := rfl
  videoRest index _ := by rfl

section Steps
variable {frames : TableFrames} {grant : Grant} {tables : PageTables}

/-- Entry 32 of a mapped program, from either state of the entry. -/
theorem mapProgram_entry (upper : BitVec 10) {flags : BitVec 22} (known : flags = 2#22 ∨ flags = 0x97#22)
    (processNum : Nat) (entry : tables.pageDirectory 32 = upper ++ flags) :
    (mapProgram tables processNum).pageDirectory 32 = BitVec.ofNat 10 (2 + processNum) ++ 0x97#22 := by
  unfold mapProgram setEntry
  simp only [if_true, Nat.mul_one]
  rw [entry]
  simp only [setUpperAddress_largePage, setFlag_largePage]
  rcases known with rfl | rfl <;> rfl

theorem TablesHold.mapProgram (hold : TablesHold frames grant tables) (processNum : Nat) :
    TablesHold frames { grant with program := some processNum } (mapProgram tables processNum) where
  sameFrames := hold.sameFrames
  zeroth := (mapProgram_pageDirectory_of_ne tables processNum (by decide)).trans hold.zeroth
  kernel := (mapProgram_pageDirectory_of_ne tables processNum (by decide)).trans hold.kernel
  program := by
    have entry := hold.program
    cases latest : grant.program with
    | none =>
        rw [latest] at entry
        exact mapProgram_entry _ (.inl rfl) processNum entry
    | some earlier =>
        rw [latest] at entry
        exact mapProgram_entry _ (.inr rfl) processNum entry
  video := (mapProgram_pageDirectory_of_ne tables processNum (by decide)).trans hold.video
  rest index small notZero notOne notProgram notVideo :=
    (mapProgram_pageDirectory_of_ne tables processNum notProgram).trans
      (hold.rest index small notZero notOne notProgram notVideo)
  first := hold.first
  videoPage := hold.videoPage
  videoRest := hold.videoRest

theorem systemCallVidmap_of_ne (tables : PageTables) {index : Nat} (different : index ≠ 33) :
    (systemCallVidmap tables).pageDirectory index = tables.pageDirectory index := by
  unfold systemCallVidmap setEntry
  exact if_neg different

theorem TablesHold.systemCallVidmap (hold : TablesHold frames grant tables) :
    TablesHold frames { grant with video := true } (systemCallVidmap tables) where
  sameFrames := hold.sameFrames
  zeroth := (systemCallVidmap_of_ne tables (by decide)).trans hold.zeroth
  kernel := (systemCallVidmap_of_ne tables (by decide)).trans hold.kernel
  program := (systemCallVidmap_of_ne tables (by decide)).trans hold.program
  video := by
    have entry := hold.video
    unfold OrcaOS.systemCallVidmap setEntry tableAddress
    simp only [if_true, hold.sameFrames]
    rw [entry]
    -- The frame is ORed into zeros the first time and into itself later.
    cases grant.video
    · rw [if_neg (by decide), setFlag_smallPage, setFlag_smallPage, BitVec.or_append, BitVec.zero_or,
        setFlag_smallPage, setFlag_smallPage, setFlag_smallPage]
      rfl
    · rw [if_pos rfl, setFlag_smallPage, setFlag_smallPage, BitVec.or_append, BitVec.or_self,
        setFlag_smallPage, setFlag_smallPage, setFlag_smallPage]
      rfl
  rest index small notZero notOne notProgram notVideo :=
    (systemCallVidmap_of_ne tables notVideo).trans
      (hold.rest index small notZero notOne notProgram notVideo)
  first := hold.first
  videoPage := by
    have entry := hold.videoPage
    unfold OrcaOS.systemCallVidmap setEntry
    simp only [if_true]
    rw [entry]
    cases grant.video <;> decide
  videoRest index notZero := by
    unfold OrcaOS.systemCallVidmap setEntry
    exact (if_neg notZero).trans (hold.videoRest index notZero)

theorem TablesHold.apply (hold : TablesHold frames grant tables) (call : PagingCall) :
    TablesHold frames (grant.apply call) (call.apply tables) := by
  cases call with
  | systemCallPaging processNum => exact hold.mapProgram processNum
  | schedulerPaging processNum => exact hold.mapProgram processNum
  | systemCallVidmap => exact hold.systemCallVidmap

/-- Every sequence of calls leaves the tables in the state of its grant. -/
theorem tablesAfter_hold (frames : TableFrames) (calls : List PagingCall) :
    TablesHold frames (.after calls) (tablesAfter frames calls) := by
  induction calls using List.reverseRecOn with
  | nil => exact pageInit_tablesHold frames
  | append_singleton earlier call ih =>
      unfold Grant.after tablesAfter
      rw [List.foldl_append, List.foldl_append]
      exact ih.apply call

end Steps

section Walk
variable (tables : PageTables) (virtual : BitVec 32)

/-- An entry without the present bit stops the walk. -/
theorem translate_absent (frame : BitVec 10)
    (entry : tables.pageDirectory (virtual.toNat / 0x400000) = frame ++ 2#22) :
    tables.translate virtual = none := by
  unfold PageTables.translate
  simp only [entry, flagOf_largePage]
  rfl

/-- A 4 MB entry with the given flags maps the whole range. -/
theorem translate_large (frame : BitVec 10) (flags : BitVec 22) (present : flags.getLsbD 0 = true)
    (large : flags.getLsbD 7 = true)
    (entry : tables.pageDirectory (virtual.toNat / 0x400000) = frame ++ flags) :
    tables.translate virtual =
      some ⟨frame.toNat * 0x400000 + virtual.toNat % 0x400000, flags.getLsbD 2⟩ := by
  unfold PageTables.translate
  simp only [entry, flagOf_largePage, upperAddress_largePage, EntryFlag.index, present, large, if_true]

/-- A present entry without the size bit continues with a table. -/
theorem translate_table (frame : BitVec 20) (flags : BitVec 12) (present : flags.getLsbD 0 = true)
    (small : flags.getLsbD 7 = false)
    (entry : tables.pageDirectory (virtual.toNat / 0x400000) = frame ++ flags) :
    tables.translate virtual = (tables.tableAt frame).bind fun table =>
      let tableEntry := table (virtual.toNat / 0x1000 % 1024)
      if flagOf tableEntry .present then
        some ⟨(addressOf tableEntry).toNat * 0x1000 + virtual.toNat % 0x1000,
          flags.getLsbD 2 && flagOf tableEntry .us⟩
      else none := by
  unfold PageTables.translate
  simp only [entry, flagOf_smallPage, addressOf_smallPage, EntryFlag.index, present, small, if_true,
    Bool.false_eq_true, if_false]

end Walk

section Regions
variable {frames : TableFrames} {grant : Grant} {tables : PageTables} {virtual : BitVec 32}

/-- The first 4 MB are walked through the first page table, with one aliased page. -/
theorem TablesHold.translate_zeroth (hold : TablesHold frames grant tables)
    (page : virtual.toNat / 0x400000 = 0) : tables.translate virtual = grant.lookup virtual.toNat := by
  have small : virtual.toNat / 0x1000 % 1024 < 1024 := Nat.mod_lt _ (by decide)
  rw [translate_table tables virtual _ _ rfl rfl (by rw [page, hold.zeroth]),
    PageTables.tableAt, if_pos (by rw [hold.sameFrames]), Option.bind_some]
  simp only [hold.first _ small, flagOf_smallPage, addressOf_smallPage]
  rw [grant.lookup_kernel (by omega), if_pos (by decide)]
  have walked : virtual.toNat / 0x1000 % 1024 = virtual.toNat / 0x1000 := by omega
  rw [walked]
  have frame : (BitVec.ofNat 20 (if virtual.toNat / 0x1000 = 0xB7 then 0xB8
      else virtual.toNat / 0x1000)).toNat =
      if virtual.toNat / 0x1000 = 0xB7 then 0xB8 else virtual.toNat / 0x1000 := by
    rw [BitVec.toNat_ofNat]
    split <;> omega
  rw [frame]
  congr 2
  split <;> omega

/-- The kernel has one large page. -/
theorem TablesHold.translate_kernel (hold : TablesHold frames grant tables)
    (page : virtual.toNat / 0x400000 = 1) : tables.translate virtual = grant.lookup virtual.toNat := by
  rw [translate_large tables virtual _ _ rfl rfl (by rw [page, hold.kernel]),
    grant.lookup_kernel (by omega), if_neg (by omega)]
  congr 2
  change 1 * 0x400000 + virtual.toNat % 0x400000 = virtual.toNat
  omega

/-- The large page of the program lies in the frame of the process. -/
theorem TablesHold.translate_program (hold : TablesHold frames grant tables)
    (valid : ∀ processNum, grant.program = some processNum → processNum < 6)
    (page : virtual.toNat / 0x400000 = 32) : tables.translate virtual = grant.lookup virtual.toNat := by
  have entry := hold.program
  unfold Grant.lookup
  rw [if_neg (by omega), if_neg (by omega), if_pos (by omega)]
  cases latest : grant.program with
  | none =>
      rw [latest] at entry
      exact translate_absent tables virtual _ (by rw [page, entry])
  | some processNum =>
      rw [latest] at entry
      have small := valid processNum latest
      have frame : (BitVec.ofNat 10 (2 + processNum)).toNat = 2 + processNum := by
        rw [BitVec.toNat_ofNat]
        omega
      rw [translate_large tables virtual _ _ rfl rfl (by rw [page, entry]), frame]
      unfold Grant.frameAddress
      simp only [Option.map_some, Option.some.injEq, Translation.mk.injEq]
      exact ⟨by omega, rfl⟩

/-- A granted video page is the only page of its table. -/
theorem TablesHold.translate_video (hold : TablesHold frames grant tables)
    (page : virtual.toNat / 0x400000 = 33) : tables.translate virtual = grant.lookup virtual.toNat := by
  have entry := hold.video
  have videoPage := hold.videoPage
  unfold Grant.lookup
  rw [if_neg (by omega), if_neg (by omega), if_neg (by omega)]
  cases granted : grant.video with
  | false =>
      rw [granted, if_neg (by decide)] at entry
      rw [if_neg (by simp)]
      exact translate_absent tables virtual 0 (by rw [page, entry]; rfl)
  | true =>
      rw [granted, if_pos rfl] at entry videoPage
      have walk := translate_table tables virtual _ _ rfl rfl (by rw [page, entry])
      rw [PageTables.tableAt, if_neg (by rw [hold.sameFrames]; exact frames.distinct.symm),
        if_pos (by rw [hold.sameFrames]), Option.bind_some,
        show virtual.toNat / 0x1000 % 1024 = virtual.toNat / 0x1000 - 0x8400 by omega] at walk
      by_cases inside : virtual.toNat < 0x8401000
      · have zero : virtual.toNat / 0x1000 - 0x8400 = 0 := by omega
        rw [if_pos ⟨by omega, inside, rfl⟩, walk, zero]
        simp only [videoPage, flagOf_smallPage, addressOf_smallPage]
        rw [if_pos (by decide)]
        simp only [Option.some.injEq, Translation.mk.injEq]
        refine ⟨?_, rfl⟩
        change 0xB8 * 0x1000 + virtual.toNat % 0x1000 = _
        omega
      · have rest := hold.videoRest (virtual.toNat / 0x1000 - 0x8400) (by omega)
        rw [if_neg (fun reach => inside reach.2.1), walk]
        simp only [rest, flagOf_smallPage]
        rfl

/-- The walk of the processor gives the address space of the grant. -/
theorem TablesHold.translate_eq (hold : TablesHold frames grant tables)
    (valid : ∀ processNum, grant.program = some processNum → processNum < 6) (virtual : BitVec 32) :
    tables.translate virtual = grant.lookup virtual.toNat := by
  have bound := virtual.isLt
  by_cases zeroth : virtual.toNat / 0x400000 = 0
  · exact hold.translate_zeroth zeroth
  by_cases kernel : virtual.toNat / 0x400000 = 1
  · exact hold.translate_kernel kernel
  by_cases program : virtual.toNat / 0x400000 = 32
  · exact hold.translate_program valid program
  by_cases video : virtual.toNat / 0x400000 = 33
  · exact hold.translate_video video
  unfold Grant.lookup
  rw [if_neg (by omega), if_neg (by omega), if_neg (by omega), if_neg (by omega)]
  exact translate_absent tables virtual _ (hold.rest _ (by omega) zeroth kernel program video)

end Regions

/-- User mode reaches the program mapped last and, after a vidmap, the video page; the kernel's 8 MB
are its own. -/
theorem addressSpace_isolated (frames : TableFrames) (calls : List PagingCall)
    (valid : ∀ call ∈ calls, ∀ processNum, call.program = some processNum → processNum < 6)
    (virtual : BitVec 32) :
    let tables := tablesAfter frames calls
    (∀ physical, tables.translate virtual = some ⟨physical, true⟩ ↔
      (∃ processNum, calls.reverse.findSome? PagingCall.program = some processNum ∧
        0x8000000 ≤ virtual.toNat ∧ virtual.toNat < 0x8400000 ∧
        physical = Grant.frameAddress processNum + (virtual.toNat - 0x8000000)) ∨
      (.systemCallVidmap ∈ calls ∧ 0x8400000 ≤ virtual.toNat ∧ virtual.toNat < 0x8401000 ∧
        physical = 0xB8000 + (virtual.toNat - 0x8400000))) ∧
    (virtual.toNat < 0x800000 → tables.translate virtual =
      some ⟨if virtual.toNat / 0x1000 = 0xB7 then virtual.toNat + 0x1000 else virtual.toNat, false⟩) ∧
    (∀ first second, first ≠ second → Disjoint (Grant.frame first) (Grant.frame second)) ∧
    ∀ processNum, Disjoint (Grant.frame processNum) (Set.Ico 0 0x800000) := by
  have programs : ∀ processNum, (Grant.after calls).program = some processNum → processNum < 6 := by
    intro processNum latest
    rw [Grant.after_program] at latest
    obtain ⟨call, member, program⟩ := List.exists_of_findSome?_eq_some latest
    exact valid call (by simpa using member) processNum program
  have walk := (tablesAfter_hold frames calls).translate_eq programs virtual
  dsimp only
  rw [walk]
  refine ⟨fun physical => ?_, Grant.lookup_kernel _, fun _ _ => Grant.frame_disjoint,
    Grant.frame_disjoint_kernel⟩
  rw [Grant.lookup_user_iff, Grant.after_program, Grant.after_video]

/-- A terminal switch between two programs, the first of which asked for the video page. -/
theorem addressSpace_isolated_switch :
    let frames : TableFrames := ⟨0x500, 0x501, by decide⟩
    let calls : List PagingCall := [.systemCallPaging 3, .systemCallVidmap, .schedulerPaging 1]
    (tablesAfter frames calls).translate 0x8048000 = some ⟨0xC48000, true⟩ := by
  dsimp only
  refine ((addressSpace_isolated _ _ ?_ 0x8048000).1 0xC48000).mpr (.inl ⟨1, rfl, ?_, ?_, rfl⟩)
  · decide
  · decide
  · decide

end OrcaOS
