import ClickA.Files.Faults

/-!
# Files that are moved

A move changes the name of a file, or copies the file. The copy may break off, and then it is the
begin of the file. What is removed is in its directory.

## Main definitions

* `Moved`: a file is at another path
* `Broken`: of a file there is a begin at another path, or nothing was done there
* `Removes`: the disk is as it was, but for what was removed of a directory

## Main results

* `wp_rename`, `wp_copy2`, `wp_move`: what a move leaves of a file
* `removes_rmtree`: `rmtree` stays in its directory
-/

namespace ClickA.Files

open Python Python.Disk

/-- A file is at another path, and not where it was. -/
structure Moved (old path : Path) (content : Bytes) (h h' : Host) : Prop where
  there : h'.disk.content path = some content
  gone : old ∉ h'.disk
  beside : Touches (fun p => p = old ∨ p = path) h h'

/-- At a path there is what was there, or a begin of a file. -/
structure Broken (path : Path) (content : Bytes) (h h' : Host) : Prop where
  beside : Touches (· = path) h h'
  begun : h'.disk.lookup path = h.disk.lookup path ∨
    ∃ written, h'.disk.content path = some written ∧ written <+: content

/-- The disk is as it was, but for what was removed of a directory. -/
def Removes (dir : Path) (h h' : Host) : Prop :=
  ∀ path, h'.disk.lookup path = h.disk.lookup path ∨ dir <:+ path ∧ path ∉ h'.disk

/-- The names below a directory are plain. -/
def PlainBelow (dir : Path) (disk : Disk) : Prop :=
  ∀ name parent, dir <:+ parent → name :: parent ∈ disk → plain name = true ∧ slash ∉ name

variable {env : Env} {h h' h'' : Host} {text src dst : Bytes} {path source dest old dir : Path}
  {content written data : Bytes} {name : Name}

theorem Reads.broken (hreads : Reads h h') : Broken path content h h' :=
  ⟨hreads.touches, .inl (by rw [hreads])⟩

/-- What is read behind a copy does not matter. -/
theorem Broken.reads (hbroken : Broken path content h h') (hreads : Reads h' h'') :
    Broken path content h h'' :=
  ⟨hbroken.beside.trans hreads.touches, by rw [hreads]; exact hbroken.begun⟩

/-- What is read before a copy does not matter. -/
theorem Broken.of_reads (hreads : Reads h h') (hbroken : Broken path content h' h'') :
    Broken path content h h'' :=
  ⟨hreads.touches.trans hbroken.beside, by rw [← hreads]; exact hbroken.begun⟩

/-- A copy goes on behind the begin of a file. -/
theorem Broken.of_begun (htouches : Touches (· = path) h h')
    (hwritten : h'.disk.content path = some written) (hbegin : written <+: content)
    (hbroken : Broken path content h' h'') : Broken path content h h'' := by
  refine ⟨htouches.trans hbroken.beside, .inr ?_⟩
  rcases hbroken.begun with hsame | hbegun
  · rw [Disk.content_eq_some, ← hsame, ← Disk.content_eq_some] at hwritten
    exact ⟨written, hwritten, hbegin⟩
  · exact hbegun

/-- A file that was copied is removed. -/
theorem Moved.of_erase (hne : old ≠ path) (htouches : Touches (· = path) h h')
    (hcopied : h'.disk.content path = some content) (herase : h''.disk = h'.disk.erase old) :
    Moved old path content h h'' where
  there := by
    rw [herase, Disk.content_eq_some, AList.lookup_erase_ne (Ne.symm hne), ← Disk.content_eq_some,
      hcopied]
  gone := by
    rw [herase]
    exact fun hmem => (AList.mem_erase.mp hmem).1 rfl
  beside := by
    intro p hp
    rw [herase, AList.lookup_erase_ne fun heq => hp (.inl heq), htouches p fun heq => hp (.inr heq)]

/-! ## Names -/

theorem resolve_of_target (h : target env.cwd text = some path) : resolve env.cwd text = path := by
  unfold target at h
  split at h
  · exact Option.some.inj h
  · cases h

theorem rstripSlash_of_getLast? (h : text.getLast? ≠ some slash) : rstripSlash text = text := by
  rcases List.eq_nil_or_concat text with rfl | ⟨front, b, rfl⟩
  · rfl
  · have hb : b ≠ slash := fun heq => h (by simp [heq])
    unfold rstripSlash
    simp [hb]

/-- A text leads to the same path without the slashes at its end. -/
theorem resolve_of_target_rstripSlash (h : target env.cwd (rstripSlash text) = some path) :
    resolve env.cwd text = path := by
  have hne : rstripSlash text ≠ [] := by
    intro hnil
    rw [hnil] at h
    cases h
  rw [← resolve_of_target h]
  exact (resolve_strip hne).symm

/-- A file has another name, if the operation ends normally. -/
theorem wp_rename (hsrc : target env.cwd (rstripSlash src) = some old)
    (hcontent : h.disk.content old = some content) (hne : resolve env.cwd dst ≠ old) :
    Wp (rename env src dst) (fun _ h' => Moved old (resolve env.cwd dst) content h h')
      (fun _ h' => Reads h h') h := by
  unfold rename
  dsimp only
  split
  · exact rfl
  · apply wp_reads_bind reads_operation _ fun _ _ hreads => hreads
    intro _ h' hreads
    rw [wp_bind, wp_get, hreads, hsrc]
    cases hdst : target env.cwd (rstripSlash dst) with
    | none => exact hreads
    | some new =>
      obtain rfl := resolve_of_target_rstripSlash hdst
      rw [Disk.content_eq_some] at hcontent
      dsimp only
      rw [hcontent]
      dsimp only
      split
      · exact hreads
      · split
        · exact hreads
        · rw [if_neg (Ne.symm hne)]
          split
          · exact hreads
          · rw [wp_modify, hreads]
            refine ⟨Disk.content_put, ?_, ?_⟩
            · rw [Disk.mem_put]
              exact not_or.mpr ⟨Ne.symm hne, fun hmem => (AList.mem_erase.mp hmem).1 rfl⟩
            · intro p hp
              unfold Disk.put
              rw [AList.lookup_insert_ne fun heq => hp (.inr heq),
                AList.lookup_erase_ne fun heq => hp (.inl heq)]

/-- A file is gone, if the operation ends normally. -/
theorem wp_remove : Wp (remove env text)
    (fun _ h' => ∃ path, target env.cwd text = some path ∧ h'.disk = h.disk.erase path)
    (fun _ h' => Reads h h') h := by
  unfold remove
  dsimp only
  split
  · exact rfl
  · apply wp_reads_bind reads_operation _ fun _ _ hreads => hreads
    intro _ h' hreads
    rw [wp_bind, wp_get, hreads]
    cases htarget : target env.cwd text with
    | none => exact hreads
    | some path =>
      dsimp only
      split
      · exact hreads
      · split
        · rw [wp_modify, hreads]
          exact ⟨path, rfl, rfl⟩
        · exact hreads

/-! ## Copies -/

@[simp] theorem wp_os {α : Type} {x : Stmt α} {Q : α → Host → Prop} {E : Failure → Host → Prop} :
    Wp (os x) Q E h ↔ Wp x Q (fun e h' => E (.other e) h') h := by
  unfold Wp os
  cases x h with
  | ok a h' => exact Iff.rfl
  | error e h' => exact Iff.rfl

/-- The loop copies the file from its position on, or breaks off. -/
theorem wp_copyBlocks (hne : source ≠ dest) (hsource : h.disk.content source = some content)
    (fuel position : ℕ) (hdest : h.disk.content dest = some (content.take position))
    (hfuel : content.length < position + fuel) :
    Wp (copyBlocks env source dest fuel position)
      (fun _ h' => Touches (· = dest) h h' ∧ h'.disk.content dest = some content)
      (fun _ h' => Broken dest content h h') h := by
  induction fuel generalizing h position with
  | zero =>
    refine ⟨refl_of (Touches _) h, ?_⟩
    rw [hdest, List.take_of_length_le (show content.length ≤ position by omega)]
  | succ fuel ih =>
    rw [copyBlocks, wp_bind]
    refine (wp_read position (16 * 1024) hsource).mono ?_ fun _ _ hreads => hreads.broken
    rintro buf h₁ ⟨hreads, rfl⟩
    have hnext : content.take position ++ (content.drop position).take (16 * 1024) =
        content.take (position + ((content.drop position).take (16 * 1024)).length) := by
      rw [List.take_add, List.length_take, ← List.take_eq_take_min]
    split
    · rename_i hbuf
      refine ⟨hreads.touches, ?_⟩
      have hlength : content.length ≤ position := by
        simpa using hbuf
      rw [hreads, hdest, List.take_of_length_le hlength]
    · rename_i hbuf
      have hlength := List.length_pos_iff.mpr hbuf
      have hdest₁ : h₁.disk.content dest = some (content.take position) := by rw [hreads, hdest]
      rw [wp_bind]
      refine wp_write.mono ?_ ?_
      · intro _ h₂ hput
        rw [hdest₁, Option.getD_some, hnext] at hput
        have hput' : Touches (· = dest) h₁ h₂ := touches_put hput rfl
        have htouches : Touches (· = dest) h h₂ := hreads.touches.trans hput'
        have hwritten : h₂.disk.content dest = some
            (content.take (position + ((content.drop position).take (16 * 1024)).length)) := by
          rw [hput, content_put]
        refine (ih (by rw [htouches.content_eq hne, hsource]) _ hwritten (by omega)).mono ?_ ?_
        · rintro _ h₃ ⟨htouches', hcontent⟩
          exact ⟨htouches.trans htouches', hcontent⟩
        · intro _ h₃ hbroken
          exact hbroken.of_begun htouches hwritten (List.take_prefix _ _)
      · rintro _ h₂ ⟨n, hput⟩
        rw [hdest₁, Option.getD_some] at hput
        have hput' : Touches (· = dest) h₁ h₂ := touches_put hput rfl
        refine ⟨hreads.touches.trans hput', .inr ?_⟩
        rw [hput, content_put]
        refine ⟨_, rfl, ?_⟩
        have hbegin : ((content.drop position).take (16 * 1024)).take n <+: content.drop position :=
          (List.take_prefix _ _).trans (List.take_prefix _ _)
        have happend := (List.prefix_append_right_inj (content.take position)).mpr hbegin
        rwa [List.take_append_drop] at happend

/-- Two files are opened, and the one is copied to the other. -/
theorem wp_copyOpened (hsrc : target env.cwd src = some source)
    (hcontent : h.disk.content source = some content) (hne : source ≠ resolve env.cwd dst) :
    Wp (copyOpened env src dst)
      (fun _ h' => Touches (· = resolve env.cwd dst) h h' ∧
        h'.disk.content (resolve env.cwd dst) = some content)
      (fun _ h' => Broken (resolve env.cwd dst) content h h') h := by
  unfold copyOpened
  rw [wp_bind]
  refine (reads_pathExists h).mono ?_ fun _ _ hreads => hreads.broken
  intro _ h₁ hreads
  rw [wp_bind]
  refine (reads_pathExists.trans hreads).mono ?_ fun _ _ hreads => hreads.broken
  intro _ h₂ hreads
  rw [wp_bind]
  refine (wp_openRead.and (reads_openRead.trans hreads)).mono ?_ fun _ _ hends => hends.2.broken
  -- from here on the source is open, and is not looked up again
  rintro path h₃ ⟨⟨-, htarget, -⟩, hreads⟩
  obtain rfl : source = path := Option.some.inj (hsrc.symm.trans htarget)
  rw [wp_bind, wp_get]
  dsimp only
  rw [hreads, hcontent, Option.getD_some, wp_bind]
  refine wp_openWrite.mono ?_ fun _ _ hreads' => (hreads.trans hreads').broken
  rintro dest h₄ ⟨hdst, hput⟩
  obtain rfl := resolve_of_target hdst
  have hput' : Touches (· = resolve env.cwd dst) h₃ h₄ := touches_put hput rfl
  have htouches := hreads.touches.trans hput'
  have hempty : h₄.disk.content (resolve env.cwd dst) = some (content.take 0) := by
    rw [hput, content_put, List.take_zero]
  refine (wp_copyBlocks hne (by rw [htouches.content_eq hne, hcontent]) _ 0 hempty
    (by omega)).mono ?_ ?_
  · rintro _ h₅ ⟨htouches', hcopied⟩
    exact ⟨htouches.trans htouches', hcopied⟩
  · intro _ h₅ hbroken
    exact hbroken.of_begun htouches hempty (List.take_prefix 0 content)

/-- A file is copied to another path, or the copy breaks off. -/
theorem wp_copy2 (hsrc : target env.cwd src = some source)
    (hcontent : h.disk.content source = some content) (hne : source ≠ resolve env.cwd dst)
    (hdir : h.disk.isDir (resolve env.cwd dst) = false) :
    Wp (copy2 env src dst)
      (fun _ h' => Touches (· = resolve env.cwd dst) h h' ∧
        h'.disk.content (resolve env.cwd dst) = some content)
      (fun _ h' => Broken (resolve env.cwd dst) content h h') h := by
  unfold copy2
  rw [wp_bind, wp_os]
  refine wp_isdir.mono ?_ fun _ _ hreads => hreads.broken
  rintro found h₁ ⟨hreads, hfound⟩
  rw [if_neg fun htrue => by rw [hfound htrue] at hdir; exact Bool.noConfusion hdir, wp_bind]
  unfold copyfile
  rw [wp_bind, wp_os]
  refine (reads_samefile.trans hreads).mono ?_ fun _ _ hreads => hreads.broken
  intro same h₂ hreads
  dsimp only
  split
  · exact hreads.broken
  · rw [wp_os]
    refine (wp_copyOpened hsrc (by rw [hreads, hcontent]) hne).mono ?_ ?_
    · rintro _ h₃ ⟨htouches, hcopied⟩
      rw [wp_os]
      refine (reads_copystat h₃).mono ?_ ?_
      · intro _ h₄ hreads'
        exact ⟨(hreads.touches.trans htouches).trans hreads'.touches, by rw [hreads', hcopied]⟩
      · intro _ h₄ hreads'
        have hbroken : Broken (resolve env.cwd dst) content h h₃ :=
          ⟨hreads.touches.trans htouches, .inr ⟨content, hcopied, List.prefix_rfl⟩⟩
        exact hbroken.reads hreads'
    · exact fun _ _ hbroken => hbroken.of_reads hreads

/-- **A file is moved**, or at the other path there is what was there or a begin of the file. -/
theorem wp_move (hsrc : target env.cwd src = some old) (hslash : rstripSlash src = src)
    (hcontent : h.disk.content old = some content) (hne : old ≠ resolve env.cwd dst)
    (hdir : h.disk.isDir (resolve env.cwd dst) = false) :
    Wp (move env src dst) (fun _ h' => Moved old (resolve env.cwd dst) content h h')
      (fun _ h' => Broken (resolve env.cwd dst) content h h') h := by
  unfold move
  rw [wp_bind, wp_os]
  refine wp_isdir.mono ?_ fun _ _ hreads => hreads.broken
  rintro found h₁ ⟨hreads, hfound⟩
  rw [if_neg fun htrue => by rw [hfound htrue] at hdir; exact Bool.noConfusion hdir]
  unfold moveTo
  rw [wp_tryCatch, wp_os]
  refine (wp_rename (by rw [hslash]; exact hsrc) (by rw [hreads, hcontent]) hne.symm).mono ?_ ?_
  · intro _ h₂ hmoved
    exact ⟨hmoved.there, hmoved.gone, hreads.touches.trans hmoved.beside⟩
  · intro e h₂ hreads'
    have hreads := hreads.trans hreads'
    cases e with
    | file flag => exact hreads.broken
    | zeroDivisionError => exact hreads.broken
    | attributeError => exact hreads.broken
    | raised e => exact hreads.broken
    | os n =>
      rw [wp_bind, wp_get]
      dsimp only
      rw [wp_bind, wp_os]
      refine wp_isdir.mono ?_ fun _ _ hreads' => (hreads.trans hreads').broken
      rintro found' h₃ ⟨hreads', hfound'⟩
      have hfile : ¬ found' = true := by
        intro htrue
        have hold := hfound' htrue
        rw [resolve_of_target hsrc, hreads] at hold
        rw [Disk.content_eq_none_of_isDir hold (target_ne_nil hsrc)] at hcontent
        cases hcontent
      have hreads := hreads.trans hreads'
      rw [if_neg hfile, wp_bind]
      refine (wp_copy2 hsrc (by rw [hreads, hcontent]) hne (by rw [hreads, hdir])).mono ?_ ?_
      · rintro _ h₄ ⟨htouches, hcopied⟩
        have htouches := hreads.touches.trans htouches
        rw [wp_os]
        refine wp_remove.mono ?_ ?_
        · rintro _ h₅ ⟨path, htarget, herase⟩
          obtain rfl : old = path := Option.some.inj (hsrc.symm.trans htarget)
          exact .of_erase hne htouches hcopied herase
        · intro e h₅ hreads'
          have hbroken : Broken (resolve env.cwd dst) content h h₄ :=
            ⟨htouches, .inr ⟨content, hcopied, List.prefix_rfl⟩⟩
          exact hbroken.reads hreads'
      · exact fun _ _ hbroken => hbroken.of_reads hreads

/-- What is raised is sent, and nothing else is done. -/
theorem wp_guarded {x : Shutil Unit} {Q P : Host → Prop}
    (hx : Wp x (fun _ h' => Q h') (fun _ h' => P h') h)
    (hreads : ∀ h' h'', P h' → Reads h' h'' → P h'') :
    Wp (guarded env x) (fun _ h' => Q h') (fun _ h' => P h') h := by
  unfold Wp at hx
  cases hrun : x h with
  | ok a h₁ =>
    rw [hrun] at hx
    have heq : guarded env x h = .ok () h₁ := by
      unfold guarded
      rw [hrun]
    rw [wp_of_ok heq]
    exact hx
  | error failure h₁ =>
    rw [hrun] at hx
    cases failure with
    | error =>
      have heq : guarded env x h = .error (.raised .structError) h₁ := by
        unfold guarded
        rw [hrun]
      rw [wp_of_error heq]
      exact hx
    | other e =>
      have heq : guarded env x h = sendException env e h₁ := by
        unfold guarded
        rw [hrun]
      refine (wp_congr heq).mpr ?_
      exact (wp_sendException e h₁).mono (fun _ _ hfalse => hfalse.elim) fun _ h₂ => hreads h₁ h₂ hx

/-! ## Directories that are removed -/

instance : Std.Refl (Removes dir) := ⟨fun _ _ => .inl rfl⟩

instance : IsTrans Host (Removes dir) where
  trans := by
    intro h h' h'' hremoves hremoves' path
    rcases hremoves' path with hsame' | hgone'
    · rcases hremoves path with hsame | ⟨hsuffix, hgone⟩
      · exact .inl (hsame'.trans hsame)
      · refine .inr ⟨hsuffix, ?_⟩
        rwa [← AList.lookup_eq_none, hsame', AList.lookup_eq_none]
    · exact .inr hgone'

theorem Reads.removes (hreads : Reads h h') : Removes dir h h' := fun path => .inl (by rw [hreads])

theorem removes_erase (herase : h'.disk = h.disk.erase path) (hsuffix : dir <:+ path) :
    Removes dir h h' := by
  intro p
  rw [herase]
  by_cases heq : p = path
  · exact .inr ⟨heq ▸ hsuffix, fun hmem => (AList.mem_erase.mp hmem).1 heq⟩
  · exact .inl (AList.lookup_erase_ne heq)

theorem PlainBelow.removes (hplain : PlainBelow dir h.disk) (hremoves : Removes dir h h') :
    PlainBelow dir h'.disk := by
  intro name parent hsuffix hmem
  rcases hremoves (name :: parent) with hsame | hgone
  · apply hplain name parent hsuffix
    rwa [← AList.lookup_isSome, ← hsame, AList.lookup_isSome]
  · exact absurd hmem hgone.2

/-- A name behind the text of a directory. -/
theorem join_eq (hslash : slash ∉ name) (hne : text ≠ []) (hlast : text.getLast? ≠ some slash) :
    join text name = text ++ slash :: name := by
  unfold join
  rw [if_neg fun hhead => hslash (List.mem_of_head? hhead),
    if_neg (not_or.mpr ⟨hne, hlast⟩)]

theorem getLast?_join (hname : plain name = true) (hslash : slash ∉ name) (hne : text ≠ [])
    (hlast : text.getLast? ≠ some slash) : (join text name).getLast? ≠ some slash := by
  have hnil : name ≠ [] := by
    rintro rfl
    exact Bool.noConfusion hname
  rw [join_eq hslash hne hlast, List.getLast?_append_of_ne_nil _ (List.cons_ne_nil slash name),
    List.getLast?_cons_of_ne_nil hnil]
  exact fun hend => hslash (List.mem_of_getLast? hend)

/-- A directory is gone, if the operation ends normally. -/
theorem wp_rmdir : Wp (rmdir env text)
    (fun _ h' => h'.disk = h.disk.erase (resolve env.cwd text)) (fun _ h' => Reads h h') h := by
  unfold rmdir
  dsimp only
  split
  · exact rfl
  · apply wp_reads_bind reads_operation _ fun _ _ hreads => hreads
    intro _ h' hreads
    rw [wp_bind, wp_get, hreads]
    cases htarget : target env.cwd (rstripSlash text) with
    | none => exact hreads
    | some path =>
      obtain rfl := resolve_of_target_rstripSlash htarget
      dsimp only
      split
      · exact hreads
      · split
        · exact hreads
        · split
          · exact hreads
          · rw [wp_modify, hreads]

/-- **`rmtree` stays in its directory**, however it ends. -/
theorem removes_rmtree (fuel : ℕ) (hne : text ≠ []) (hlast : text.getLast? ≠ some slash)
    (hsuffix : dir <:+ resolve env.cwd text) (hplain : PlainBelow dir h.disk) :
    Wp (rmtree env fuel text) (fun _ h' => Removes dir h h') (fun _ h' => Removes dir h h') h := by
  induction fuel generalizing text h with
  | zero => exact refl_of (Removes dir) h
  | succ fuel ih =>
    rw [rmtree, wp_bind]
    refine (reads_pathExists h).mono ?_ fun _ _ hreads => hreads.removes
    intro _ h₁ hreads
    rw [wp_bind]
    refine wp_listdir.mono ?_ fun _ _ hreads' => (hreads.trans hreads').removes
    rintro names h₂ ⟨hreads', -, hnames⟩
    rw [hreads] at hnames
    have hreads := hreads.trans hreads'
    rw [wp_bind]
    refine (wp_forM (I := fun names h' => Removes dir h h' ∧
      ∀ name ∈ names, plain name = true ∧ slash ∉ name) ?_ ⟨hreads.removes, fun name hmem =>
        hplain name _ hsuffix (hnames name hmem)⟩).mono ?_ fun _ _ hremoves => hremoves
    · rintro name names h₃ ⟨hremoves, hplains⟩
      obtain ⟨hname, hslash⟩ := hplains name List.mem_cons_self
      have hleft : ∀ name ∈ names, plain name = true ∧ slash ∉ name := fun name' hmem =>
        hplains name' (List.mem_cons_of_mem _ hmem)
      have hjoin : join text name = text ++ slash :: name := join_eq hslash hne hlast
      have hresolve : resolve env.cwd (join text name) = name :: resolve env.cwd text := by
        rw [hjoin, resolve_append hname hslash hne]
      have hsuffix' : dir <:+ resolve env.cwd (join text name) := by
        rw [hresolve]
        exact hsuffix.trans (List.suffix_cons name _)
      rw [wp_bind]
      refine wp_isdir.mono ?_ fun _ _ hends => trans_of (Removes dir) hremoves hends.removes
      rintro found h₄ ⟨hreads', -⟩
      have hremoves := trans_of (Removes dir) hremoves hreads'.removes
      split
      · have hne' : join text name ≠ [] := by
          rw [hjoin]
          exact List.append_ne_nil_of_left_ne_nil hne _
        refine (ih hne' (getLast?_join hname hslash hne hlast) hsuffix'
          (hplain.removes hremoves)).mono ?_ ?_
        · exact fun _ _ hremoves' => ⟨trans_of (Removes dir) hremoves hremoves', hleft⟩
        · exact fun _ _ hremoves' => trans_of (Removes dir) hremoves hremoves'
      · refine wp_remove.mono ?_ fun _ _ hends => trans_of (Removes dir) hremoves hends.removes
        rintro _ h₅ ⟨path, htarget, herase⟩
        obtain rfl := resolve_of_target htarget
        exact ⟨trans_of (Removes dir) hremoves (removes_erase herase hsuffix'), hleft⟩
    · rintro _ h₃ ⟨hremoves, -⟩
      refine wp_rmdir.mono ?_ fun _ _ hends => trans_of (Removes dir) hremoves hends.removes
      intro _ h₄ herase
      exact trans_of (Removes dir) hremoves (removes_erase herase hsuffix)

end ClickA.Files
