import Rtvbp.Spec.Write

/-!
# What the synchronization leaves behind

All calls are described by the contents of the files. The loop over the owned files takes the stale ones away, the
loop over the generated ones gives each its bytes, and the second loop does not see what the first one did.
-/

namespace Rtvbp.Spec

open Rtvbp.Lib

variable {ν : Type} [DecidableEq ν]

/-- The content of a file of the output directory. -/
def Output.content (out : Output ν) (path : List ν) : Option (List UInt8) := (out.read path).toOption

variable {out out' : Output ν} {dir dir' : Directory ν} {path q : List ν} {bytes : List UInt8}
  {file : GeneratedFile ν} {files : List (GeneratedFile ν)}

@[simp] theorem Output.content_none : Output.content (none : Output ν) path = none := rfl
/-! ## The calls -/

theorem content_createDirAll (h : dir.createDirAll path = .ok dir') :
    Output.content (some dir') q = Output.content (some dir) q := by
  unfold Directory.createDirAll at h
  split at h
  next es hes =>
    rw [← Except.ok.inj h]
    exact FileTree.content_makeDirs hes q
  · cases h

theorem createDirAll_of_content {name : ν} (h : Output.content (some dir) (path ++ [name]) = some bytes) :
    dir.createDirAll path = .ok dir := by
  have hdirs : FileTree.makeDirs dir.entries path = .ok dir.entries := FileTree.makeDirs_of_content h
  unfold Directory.createDirAll
  split
  next es hes =>
    rw [hdirs] at hes
    obtain rfl := Except.ok.inj hes
    rfl
  next e he =>
    rw [hdirs] at he
    cases he

theorem content_write (h : dir.write path bytes = .ok dir') :
    Output.content (some dir') q = if q = path then some bytes else Output.content (some dir) q := by
  unfold Directory.write at h
  split at h
  next es hes =>
    rw [← Except.ok.inj h]
    obtain ⟨c, hc, hcontent⟩ := FileTree.content_alter hes
    rw [← Except.ok.inj hc] at hcontent
    exact hcontent q
  · cases h

theorem content_removeFile (h : dir.removeFile path = .ok dir') :
    Output.content (some dir') q = if q = path then none else Output.content (some dir) q := by
  unfold Directory.removeFile at h
  split at h
  next es hes =>
    rw [← Except.ok.inj h]
    obtain ⟨c, hc, hcontent⟩ := FileTree.content_alter hes
    have hnone : c = none := by
      split at hc
      · cases hc
      · exact (Except.ok.inj hc).symm
    rw [hnone] at hcontent
    exact hcontent q
  · cases h

/-- A file does not differ if it has the bytes. -/
theorem outputDiffers_eq_false_iff : outputDiffers out path bytes = .ok false ↔ out.content path = some bytes := by
  unfold outputDiffers Output.content
  cases hread : out.read path with
  | ok actual =>
    show (Except.ok (decide (actual ≠ bytes)) : Except (WriteError ν) Bool) = .ok false ↔ some actual = some bytes
    simp
  | error e =>
    cases e <;> simp [Except.toOption]

/-! ## Writing -/

/-- A directory that is made first is empty. -/
theorem content_getD (out : Output ν) (q : List ν) : Output.content (some (out.getD .empty)) q = out.content q := by
  cases out with
  | none => cases q <;> rfl
  | some dir => rfl

/-- A round of the loop gives the file its bytes, and leaves the others. -/
theorem content_writeFile (h : writeFile out file = (.ok (), out')) :
    out'.content q = if q = names file.path then some file.bytes else out.content q := by
  unfold writeFile at h
  dsimp only at h
  split at h
  next => cases h
  next dir hdir =>
    have hmade : Output.content (some dir) q = out.content q := by
      rw [content_createDirAll hdir, content_getD]
    split at h
    next => cases h
    next hsame =>
      obtain rfl := (Prod.mk.inj h).2
      by_cases hq : q = names file.path
      · rw [if_pos hq, hq]
        exact outputDiffers_eq_false_iff.1 hsame
      · rw [if_neg hq]
        exact hmade
    next =>
      split at h
      next => cases h
      next written hwritten =>
        obtain rfl := (Prod.mk.inj h).2
        rw [content_write hwritten, hmade]

/-- A file that has its bytes is not written, and no directory is made. -/
theorem writeFile_of_content (h : out.content (names file.path) = some file.bytes) :
    writeFile out file = (.ok (), out) := by
  cases out with
  | none => cases h
  | some dir =>
    have hne : names file.path ≠ [] := by
      intro hnil
      rw [hnil] at h
      cases h
    have hsplit := List.dropLast_append_getLast hne
    have hdirs : dir.createDirAll (names file.path).dropLast = .ok dir := by
      rw [← hsplit] at h
      exact createDirAll_of_content h
    have hsame := outputDiffers_eq_false_iff.2 h
    unfold writeFile
    simp only [Option.getD_some, hdirs, hsame]

/-- The loop gives every file its bytes, and leaves the others. -/
theorem content_writeAll (hnodup : (expectedPaths files).Nodup) (h : writeAll out files = (.ok (), out')) :
    (∀ file ∈ files, out'.content (names file.path) = some file.bytes) ∧
      ∀ q ∉ expectedPaths files, out'.content q = out.content q := by
  induction files generalizing out with
  | nil =>
    obtain rfl := (Prod.mk.inj h).2
    exact ⟨fun file hfile => absurd hfile List.not_mem_nil, fun q _ => rfl⟩
  | cons file files ih =>
    obtain ⟨hfresh, hnodup⟩ := List.nodup_cons.mp hnodup
    unfold writeAll at h
    split at h
    next => cases h
    next written hwritten =>
      obtain ⟨hbytes, hothers⟩ := ih hnodup h
      constructor
      · intro f hf
        rcases List.mem_cons.mp hf with rfl | hf
        · rw [hothers _ hfresh, content_writeFile hwritten, if_pos rfl]
        · exact hbytes f hf
      · intro q hq
        obtain ⟨hne, hq⟩ := not_or.mp (List.mem_cons.not.mp hq)
        rw [hothers q hq, content_writeFile hwritten, if_neg hne]

theorem writeAll_of_content (h : ∀ file ∈ files, out.content (names file.path) = some file.bytes) :
    writeAll out files = (.ok (), out) := by
  induction files with
  | nil => rfl
  | cons file files ih =>
    obtain ⟨hfile, hfiles⟩ := List.forall_mem_cons.mp h
    unfold writeAll
    rw [writeFile_of_content hfile]
    exact ih hfiles

/-! ## Valid lists -/

theorem validateFrom_eq_ok_iff {seen : List (List (Component ν))} :
    validateFrom seen files = .ok () ↔
      (∀ file ∈ files, safePath file.path = true) ∧ (files.map (·.path)).Nodup ∧
        ∀ file ∈ files, file.path ∉ seen := by
  induction files generalizing seen with
  | nil => simp [validateFrom]
  | cons file files ih =>
    unfold validateFrom
    by_cases hsafe : safePath file.path = true
    · by_cases hseen : file.path ∈ seen
      · simp [hsafe, hseen]
      · have hnext : (∀ f ∈ files, f.path ∉ file.path :: seen) ↔
            file.path ∉ files.map (·.path) ∧ ∀ f ∈ files, f.path ∉ seen := by
          constructor
          · intro hall
            refine ⟨fun hmem => ?_, fun f hf hmem => hall f hf (List.mem_cons_of_mem _ hmem)⟩
            obtain ⟨f, hf, hpath⟩ := List.mem_map.mp hmem
            exact hall f hf (by rw [hpath]; exact List.mem_cons_self)
          · rintro ⟨hfresh, hall⟩ f hf hmem
            rcases List.mem_cons.mp hmem with hpath | hmem
            · exact hfresh (hpath ▸ List.mem_map_of_mem hf)
            · exact hall f hf hmem
        simp only [hsafe, hseen, Bool.not_true, Bool.false_eq_true, if_false, ih, hnext, List.map_cons,
          List.nodup_cons, List.forall_mem_cons]
        tauto
    · simp [hsafe]

/-- A list is valid if its paths are safe and distinct. -/
theorem validatePaths_eq_ok_iff : validatePaths files = .ok () ↔
    (∀ file ∈ files, safePath file.path = true) ∧ (files.map (·.path)).Nodup := by
  unfold validatePaths
  rw [validateFrom_eq_ok_iff]
  simp

omit [DecidableEq ν] in
/-- A safe path is given by its names. -/
theorem path_eq_of_safe {path : List (Component ν)} (h : safePath path = true) : path = (names path).map .normal := by
  have hall : ∀ component ∈ path, component.name?.isSome = true := by
    unfold safePath at h
    rw [Bool.and_eq_true, List.all_eq_true] at h
    exact h.2
  clear h
  induction path with
  | nil => rfl
  | cons component path ih =>
    obtain ⟨hcomponent, hpath⟩ := List.forall_mem_cons.mp hall
    cases component with
    | normal name =>
      show _ = Component.normal name :: (names path).map .normal
      rw [← ih hpath]
    | drive | rootDir | curDir | parentDir => cases hcomponent

/-- The names of distinct safe paths are distinct. -/
theorem expectedPaths_nodup (h : validatePaths files = .ok ()) : (expectedPaths files).Nodup := by
  obtain ⟨hsafe, hnodup⟩ := validatePaths_eq_ok_iff.1 h
  unfold expectedPaths
  rw [List.nodup_map_iff_inj_on (List.Nodup.of_map _ hnodup)]
  intro f hf g hg hnames
  have hpath : f.path = g.path := by
    rw [path_eq_of_safe (hsafe f hf), path_eq_of_safe (hsafe g hg), hnames]
  exact List.inj_on_of_nodup_map hnodup hf hg hpath

/-! ## Stale files -/

/-- The loop takes away what is not expected, and leaves the rest. -/
theorem content_removeStale {expected paths : List (List ν)} (h : removeStale expected out paths = (.ok (), out')) :
    out'.content q = if q ∈ paths ∧ q ∉ expected then none else out.content q := by
  induction paths generalizing out with
  | nil =>
    obtain rfl := (Prod.mk.inj h).2
    simp
  | cons relative paths ih =>
    unfold removeStale at h
    by_cases hexpected : relative ∈ expected
    · rw [if_pos hexpected] at h
      rw [ih h]
      by_cases hq : q = relative
      · subst hq
        simp [hexpected]
      · simp [hq]
    · rw [if_neg hexpected] at h
      cases out with
      | none => cases h
      | some dir =>
        dsimp only at h
        split at h
        next => cases h
        next removed hremoved =>
          rw [ih h, content_removeFile hremoved]
          by_cases hq : q = relative
          · subst hq
            simp [hexpected]
          · simp [hq]

theorem removeStale_of_expected {expected paths : List (List ν)} (h : ∀ path ∈ paths, path ∈ expected) :
    removeStale expected out paths = (.ok (), out) := by
  induction paths with
  | nil => rfl
  | cons relative paths ih =>
    obtain ⟨hrelative, hpaths⟩ := List.forall_mem_cons.mp h
    unfold removeStale
    rw [if_pos hrelative]
    exact ih hpaths

/-! ## Owned files -/

section Owned

variable {ν : Type} [LinearOrder ν] {out out' : Output ν} {files : List (GeneratedFile ν)} {owns : List ν → Bool}
  {q : List ν}

/-- The owned files are the files on disk that the predicate takes. -/
theorem mem_ownedFiles : q ∈ ownedFiles out owns ↔ owns q = true ∧ (out.content q).isSome := by
  cases out with
  | none => simp [ownedFiles]
  | some dir =>
    unfold ownedFiles sortPaths
    rw [List.mem_mergeSort, FileTree.mem_scan dir.distinct]
    constructor
    · rintro ⟨r, rfl, hsome, howns⟩
      exact ⟨howns, hsome⟩
    · rintro ⟨howns, hsome⟩
      exact ⟨q, rfl, hsome, howns⟩

/-- A synchronization that succeeds. -/
theorem synchronizeFiles_eq_ok (h : synchronizeFiles out files owns = (.ok (), out')) :
    validatePaths files = .ok () ∧ ∃ cleaned,
      removeStale (expectedPaths files) out (ownedFiles out owns) = (.ok (), cleaned) ∧
      writeAll cleaned files = (.ok (), out') := by
  unfold synchronizeFiles at h
  split at h
  next => cases h
  next hvalid =>
    refine ⟨hvalid, ?_⟩
    split at h
    next => cases h
    next cleaned hcleaned =>
      unfold writeFiles at h
      rw [hvalid] at h
      exact ⟨cleaned, hcleaned, h⟩

/-- The contents after a synchronization. -/
theorem content_synchronizeFiles (h : synchronizeFiles out files owns = (.ok (), out')) :
    (∀ file ∈ files, out'.content (names file.path) = some file.bytes) ∧
      ∀ q ∉ expectedPaths files, out'.content q = if owns q = true then none else out.content q := by
  obtain ⟨hvalid, cleaned, hcleaned, hwritten⟩ := synchronizeFiles_eq_ok h
  obtain ⟨hbytes, hothers⟩ := content_writeAll (expectedPaths_nodup hvalid) hwritten
  refine ⟨hbytes, fun q hq => ?_⟩
  rw [hothers q hq, content_removeStale hcleaned]
  simp only [mem_ownedFiles]
  by_cases howns : owns q = true
  · cases hcontent : out.content q with
    | none => simp
    | some bytes => simp [howns, hq]
  · simp [howns]

/-- What a directory must be like for the check. -/
def Synchronized (out : Output ν) (files : List (GeneratedFile ν)) (owns : List ν → Bool) : Prop :=
  (∀ q, owns q = true → (out.content q).isSome → q ∈ expectedPaths files) ∧
    ∀ file ∈ files, out.content (names file.path) = some file.bytes

theorem synchronized_of_synchronizeFiles (h : synchronizeFiles out files owns = (.ok (), out')) :
    Synchronized out' files owns := by
  obtain ⟨hbytes, hothers⟩ := content_synchronizeFiles h
  refine ⟨fun q howns hsome => ?_, hbytes⟩
  by_contra hq
  rw [hothers q hq, if_pos howns] at hsome
  cases hsome

/-- Nothing is done in a directory that is synchronized. -/
theorem synchronizeFiles_of_synchronized (hvalid : validatePaths files = .ok ()) (h : Synchronized out files owns) :
    synchronizeFiles out files owns = (.ok (), out) := by
  obtain ⟨howned, hbytes⟩ := h
  have hstale : removeStale (expectedPaths files) out (ownedFiles out owns) = (.ok (), out) := by
    refine removeStale_of_expected fun path hpath => ?_
    obtain ⟨howns, hsome⟩ := mem_ownedFiles.1 hpath
    exact howned path howns hsome
  unfold synchronizeFiles
  rw [hvalid]
  dsimp only
  rw [hstale]
  dsimp only
  unfold writeFiles
  rw [hvalid]
  exact writeAll_of_content hbytes

/-! ## The check -/

theorem differing_eq_nil_iff :
    differing out files = .ok [] ↔ ∀ file ∈ files, out.content (names file.path) = some file.bytes := by
  induction files with
  | nil => exact iff_of_true rfl fun file hfile => absurd hfile List.not_mem_nil
  | cons file files ih =>
    have hcons : differing out (file :: files) =
        outputDiffers out (names file.path) file.bytes >>= fun differs =>
          differing out files >>= fun paths => pure (if differs then names file.path :: paths else paths) := rfl
    rw [List.forall_mem_cons, ← ih, ← outputDiffers_eq_false_iff, hcons]
    cases outputDiffers out (names file.path) file.bytes with
    | error e => simp [bind, Except.bind]
    | ok differs =>
      cases differing out files with
      | error e => simp [bind, Except.bind]
      | ok paths => cases differs <;> simp [bind, Except.bind, pure, Except.pure]

omit [LinearOrder ν] in
theorem reportDrift_eq_ok_iff {paths : List (List ν)} : reportDrift paths = .ok () ↔ paths = [] := by
  unfold reportDrift
  cases paths <;> simp

theorem checkOwnedFiles_eq_ok_iff (hvalid : validatePaths files = .ok ()) :
    checkOwnedFiles out files owns = .ok () ↔ Synchronized out files owns := by
  have hcheck : checkOwnedFiles out files owns = validatePaths files >>= fun _ =>
      differing out files >>= fun paths => reportDrift ((sortPaths
        (((ownedFiles out owns).filter fun path => path ∉ expectedPaths files) ++ paths)).destutter (· ≠ ·)) := rfl
  have hstale : ((ownedFiles out owns).filter fun path => path ∉ expectedPaths files) = [] ↔
      ∀ q, owns q = true → (out.content q).isSome → q ∈ expectedPaths files := by
    rw [List.filter_eq_nil_iff]
    constructor
    · intro hall q howns hsome
      simpa using hall q (mem_ownedFiles.2 ⟨howns, hsome⟩)
    · intro hall q hq
      obtain ⟨howns, hsome⟩ := mem_ownedFiles.1 hq
      simpa using hall q howns hsome
  unfold Synchronized
  rw [hcheck, hvalid, ← differing_eq_nil_iff, ← hstale]
  cases differing out files with
  | error e => simp [bind, Except.bind]
  | ok paths =>
    show reportDrift _ = .ok () ↔ _
    unfold sortPaths
    rw [reportDrift_eq_ok_iff, List.destutter_eq_nil, ← List.length_eq_zero_iff, List.length_mergeSort,
      List.length_eq_zero_iff, List.append_eq_nil_iff, Except.ok.injEq]

/-- The synchronization of the output. After one that succeeds the check succeeds, what is neither expected nor owned
is as it was, what is owned and not expected is gone, and a second synchronization changes nothing. For a valid list
the check succeeds exactly if the owned files are expected and the expected files have their bytes. A list with an
unsafe path, or with one path twice, is refused, and nothing is changed. -/
theorem synchronize_then_check (out : Output ν) (files : List (GeneratedFile ν)) (owns : List ν → Bool) :
    (∀ out', synchronizeFiles out files owns = (.ok (), out') →
      checkOwnedFiles out' files owns = .ok () ∧
      (∀ q, q ∉ expectedPaths files → owns q = false → out'.content q = out.content q) ∧
      (∀ q, owns q = true → q ∉ expectedPaths files → out'.content q = none) ∧
      synchronizeFiles out' files owns = (.ok (), out')) ∧
    (validatePaths files = .ok () →
      (checkOwnedFiles out files owns = .ok () ↔
        (∀ q, owns q = true → (out.content q).isSome → q ∈ expectedPaths files) ∧
          ∀ file ∈ files, out.content (names file.path) = some file.bytes)) ∧
    (¬ ((∀ file ∈ files, safePath file.path = true) ∧ (files.map (·.path)).Nodup) →
      ∃ error, synchronizeFiles out files owns = (.error error, out) ∧
        checkOwnedFiles out files owns = .error error) := by
  refine ⟨?_, checkOwnedFiles_eq_ok_iff, ?_⟩
  · intro out' h
    have hvalid := (synchronizeFiles_eq_ok h).1
    have hsync := synchronized_of_synchronizeFiles h
    obtain ⟨-, hothers⟩ := content_synchronizeFiles h
    refine ⟨(checkOwnedFiles_eq_ok_iff hvalid).mpr hsync, ?_, ?_, synchronizeFiles_of_synchronized hvalid hsync⟩
    · intro q hq howns
      rw [hothers q hq, if_neg (by simp [howns])]
    · intro q howns hq
      rw [hothers q hq, if_pos howns]
  · intro hinvalid
    rw [← validatePaths_eq_ok_iff] at hinvalid
    cases hvalidate : validatePaths files with
    | ok _ => exact absurd hvalidate hinvalid
    | error error =>
      refine ⟨error, ?_, ?_⟩
      · unfold synchronizeFiles
        rw [hvalidate]
      · unfold checkOwnedFiles
        rw [hvalidate]
        rfl

/-- A stale file and one that was written by hand. -/
def oldOutput : Output ℕ := some
  ⟨[(0, .file [1]), (1, .dir [(2, .file [2])])], ⟨by decide, trivial, by decide, ⟨by decide, trivial, trivial⟩, trivial⟩⟩

/-- The generated file is in a directory that is not there. -/
def newFiles : List (GeneratedFile ℕ) := [⟨[.normal 3, .normal 4], [5]⟩]

theorem newFiles_synchronized :
    ∃ out', synchronizeFiles oldOutput newFiles (fun path => decide (path = [0])) = (.ok (), out') ∧
      checkOwnedFiles out' newFiles (fun path => decide (path = [0])) = .ok () ∧
      out'.content [0] = none ∧ out'.content [1, 2] = some [2] := by
  have howned : ownedFiles oldOutput (fun path => decide (path = [0])) = [[0]] := List.mergeSort_singleton _
  have hsync : ∃ out', synchronizeFiles oldOutput newFiles (fun path => decide (path = [0])) = (.ok (), out') := by
    unfold synchronizeFiles
    rw [howned]
    exact ⟨_, rfl⟩
  obtain ⟨out', h⟩ := hsync
  obtain ⟨hsynchronized, -, -⟩ :=
    synchronize_then_check oldOutput newFiles fun path => decide (path = [0])
  obtain ⟨hcheck, hkept, hgone, -⟩ := hsynchronized out' h
  refine ⟨out', h, hcheck, hgone [0] rfl (by decide), ?_⟩
  rw [hkept [1, 2] (by decide) rfl]
  rfl

end Owned

end Rtvbp.Spec
