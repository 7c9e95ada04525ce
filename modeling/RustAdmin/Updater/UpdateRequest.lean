import Mathlib.Data.List.Basic
import Mathlib.Data.Prod.Lex
import Mathlib.Order.PiLex

/-!
# Requests of the macOS updater

An update goes from a bundle of the product to a strictly newer one.  A version is a list of
numbers without zeros at its end; versions are ordered as if they went on with zeros.

A version is compared as an infinite sequence that ends in zeros; `rank` is that
sequence in a linear order, and `less_iff` and `same_iff` reduce the comparisons to
it.  `parsed_of_load` says that the texts of a bundle determine its rank, so an
accepted request raises the rank (`newer_of_make`), and `Newer` is transitive and
asymmetric.
-/

namespace RustAdmin.Updater

/-! ## Versions -/

/-- `CharacterSet.whitespacesAndNewlines` -/
def isWhitespaceOrNewline (c : Char) : Bool :=
  decide (c.toNat ∈ [0x09, 0x20, 0x85, 0xA0, 0x1680, 0x2028, 0x2029, 0x202F, 0x205F, 0x3000]) ||
    decide (0x0A ≤ c.toNat ∧ c.toNat ≤ 0x0D) || decide (0x2000 ≤ c.toNat ∧ c.toNat ≤ 0x200A)

def trimmingWhitespace (text : String) : List Char :=
  ((text.toList.dropWhile isWhitespaceOrNewline).reverse.dropWhile isWhitespaceOrNewline).reverse

def isDigit (c : Char) : Bool := decide (48 ≤ c.toNat ∧ c.toNat ≤ 57)

/-- The digits as a `UInt64`. -/
def digitsValue (digits : List Char) : Option ℕ :=
  if digits.isEmpty || !digits.all isDigit then none
  else
    let value := digits.foldl (fun acc c => 10 * acc + (c.toNat - 48)) 0
    if value < UInt64.size then some value else none

/-- `UInt64(text)`: a sign may stand before the digits. -/
def parseUInt64 : List Char → Option ℕ
  | '+' :: digits => digitsValue digits
  | '-' :: digits => (digitsValue digits).filter (· = 0)
  | digits => digitsValue digits

/-- The loop over the reversed components that removes the zeros at the end. -/
def removeLastZeros : List ℕ → List ℕ
  | 0 :: next :: rest => removeLastZeros (next :: rest)
  | components => components

theorem removeLastZeros_ne_nil {components : List ℕ} (h : components ≠ []) :
    removeLastZeros components ≠ [] := by
  induction components using removeLastZeros.induct with
  | case1 next rest ih => exact ih (List.cons_ne_nil _ _)
  | case2 components hstop =>
      rw [removeLastZeros]
      · exact h
      · exact hstop

theorem removeLastZeros_head {components : List ℕ} (h : 1 < (removeLastZeros components).length) :
    (removeLastZeros components).head? ≠ some 0 := by
  induction components using removeLastZeros.induct with
  | case1 next rest ih => exact ih h
  | case2 components hstop =>
      rw [removeLastZeros] at h ⊢
      · cases components with
        | nil => simp
        | cons first rest =>
            cases rest with
            | nil => simp at h
            | cons next rest =>
                intro hzero
                obtain rfl := Option.some.inj hzero
                exact hstop next rest rfl
      · exact hstop
      · exact hstop

structure NumericVersion where
  components : List ℕ
  nonempty : components ≠ []
  /-- Only a version of one component ends with a zero. -/
  trimmed : 1 < components.length → components.getLast? ≠ some 0

namespace NumericVersion

def ofComponents (components : List ℕ) (h : components ≠ []) : NumericVersion where
  components := (removeLastZeros components.reverse).reverse
  nonempty := by
    have hreverse : components.reverse ≠ [] := by simpa using h
    simpa using removeLastZeros_ne_nil hreverse
  trimmed := by
    intro hlength
    rw [List.getLast?_reverse]
    exact removeLastZeros_head (by simpa using hlength)

def parse (rawValue : String) : Option NumericVersion :=
  let value := trimmingWhitespace rawValue
  if value = [] then none
  else
    match (value.splitOn '.').mapM digitsValue with
    | none => none
    | some components => if h : components ≠ [] then some (ofComponents components h) else none

/-- The component at an index, or zero beyond the last one. -/
def component (version : NumericVersion) (index : ℕ) : ℕ := version.components.getD index 0

/-- `<`: the first index at which the versions differ decides. -/
def less (lhs rhs : NumericVersion) : Bool :=
  let count := max lhs.components.length rhs.components.length
  match (List.range count).find? fun index => lhs.component index ≠ rhs.component index with
  | some index => decide (lhs.component index < rhs.component index)
  | none => false

end NumericVersion

structure BundleVersion where
  numericVersion : NumericVersion
  revision : ℕ
  rawVersion : String
  rawRevision : String

namespace BundleVersion

/-- `==` -/
def same (lhs rhs : BundleVersion) : Bool :=
  decide (lhs.numericVersion.components = rhs.numericVersion.components) &&
    decide (lhs.revision = rhs.revision)

/-- `<` -/
def less (lhs rhs : BundleVersion) : Bool :=
  if lhs.numericVersion.components ≠ rhs.numericVersion.components then
    lhs.numericVersion.less rhs.numericVersion
  else decide (lhs.revision < rhs.revision)

end BundleVersion

/-! ## The order of versions -/

namespace NumericVersion

/-- A version as it goes on with zeros. -/
def rank (version : NumericVersion) : Lex (ℕ → ℕ) := toLex version.component

variable {lhs rhs : NumericVersion}

theorem component_of_le (version : NumericVersion) {index : ℕ}
    (h : version.components.length ≤ index) : version.component index = 0 := by
  rw [component, List.getD_eq_getElem?_getD, List.getElem?_eq_none h]
  rfl

/-- Without zeros at the end, the components are determined by how the version goes on. -/
theorem length_le_of_component (h : ∀ index, lhs.component index = rhs.component index) :
    lhs.components.length ≤ rhs.components.length := by
  by_contra hlt
  have hpos : 0 < rhs.components.length := List.length_pos_iff.mpr rhs.nonempty
  have hlast : lhs.components.getLast? = some (lhs.component (lhs.components.length - 1)) := by
    rw [List.getLast?_eq_getElem?, component, List.getD_eq_getElem?_getD,
      List.getElem?_eq_getElem (by omega), Option.getD_some]
  apply lhs.trimmed (by omega)
  rw [hlast, h, component_of_le rhs (by omega)]

theorem components_eq_iff : lhs.components = rhs.components ↔ lhs.rank = rhs.rank := by
  constructor
  · intro h
    exact congrArg toLex (funext fun index => by rw [component, component, h])
  · intro h
    have hcomponent : ∀ index, lhs.component index = rhs.component index := congrFun h
    have hlength : lhs.components.length = rhs.components.length :=
      Nat.le_antisymm (length_le_of_component hcomponent)
        (length_le_of_component fun index => (hcomponent index).symm)
    refine List.ext_getElem hlength fun index hleft hright => ?_
    have hindex := hcomponent index
    rwa [component, component, List.getD_eq_getElem?_getD, List.getD_eq_getElem?_getD,
      List.getElem?_eq_getElem hleft, List.getElem?_eq_getElem hright] at hindex

theorem less_iff : lhs.less rhs = true ↔ lhs.rank < rhs.rank := by
  unfold less
  dsimp only
  split
  · next index hfind =>
      obtain ⟨hdiffers, -, hbefore⟩ := List.find?_range_eq_some.mp hfind
      have hsame : ∀ j < index, lhs.component j = rhs.component j := by
        intro j hj
        simpa using hbefore j hj
      rw [decide_eq_true_iff]
      constructor
      · exact fun hless => ⟨index, hsame, hless⟩
      · rintro ⟨first, hfirst, hless⟩
        rcases lt_trichotomy first index with hlt | rfl | hlt
        · exact absurd (hsame first hlt) hless.ne
        · exact hless
        · exact absurd (hfirst index hlt) (of_decide_eq_true hdiffers)
  · next hnone =>
      have hsame : lhs.rank = rhs.rank := by
        refine congrArg toLex (funext fun index => ?_)
        by_cases hindex : index < max lhs.components.length rhs.components.length
        · simpa using List.find?_range_eq_none.mp hnone index hindex
        · rw [component_of_le lhs (by omega), component_of_le rhs (by omega)]
      rw [hsame]
      exact ⟨fun h => absurd h Bool.false_ne_true, fun h => absurd h (lt_irrefl _)⟩

end NumericVersion

namespace BundleVersion

/-- The place of a version in the order, whatever it was written as. -/
def rank (version : BundleVersion) : Lex (ℕ → ℕ) ×ₗ ℕ :=
  toLex (version.numericVersion.rank, version.revision)

variable {lhs rhs : BundleVersion}

theorem same_iff : lhs.same rhs = true ↔ lhs.rank = rhs.rank := by
  rw [same, Bool.and_eq_true, decide_eq_true_iff, decide_eq_true_iff,
    NumericVersion.components_eq_iff, rank, rank, toLex_inj, Prod.mk.injEq]

theorem less_iff : lhs.less rhs = true ↔ lhs.rank < rhs.rank := by
  rw [less, rank, rank, Prod.Lex.toLex_lt_toLex]
  split
  · next hdiffer =>
      rw [NumericVersion.less_iff]
      constructor
      · exact .inl
      · rintro (hless | ⟨hsame, -⟩)
        · exact hless
        · exact absurd (NumericVersion.components_eq_iff.mpr hsame) hdiffer
  · next hsame =>
      have heq := NumericVersion.components_eq_iff.mp (not_not.mp hsame)
      rw [decide_eq_true_iff, heq]
      exact ⟨fun h => .inr ⟨rfl, h⟩, fun h => (h.resolve_left (lt_irrefl _)).2⟩

/-- Of two versions one is less, or they are the same, and those that are the same compare alike
with any other. -/
theorem totally_ordered (first second third : BundleVersion) :
    (first.less second).toNat + (first.same second).toNat + (second.less first).toNat = 1 ∧
      (first.less second = true → second.less third = true → first.less third = true) ∧
      (first.same second = true →
        first.less third = second.less third ∧ third.less first = third.less second) := by
  have hbool : ∀ lhs rhs : BundleVersion, lhs.less rhs = decide (lhs.rank < rhs.rank) :=
    fun lhs rhs => by rw [Bool.eq_iff_iff, less_iff, decide_eq_true_iff]
  have hsame : first.same second = decide (first.rank = second.rank) := by
    rw [Bool.eq_iff_iff, same_iff, decide_eq_true_iff]
  simp only [hbool, hsame, decide_eq_true_iff]
  refine ⟨?_, fun h h' => h.trans h', fun h => by rw [h]; exact ⟨rfl, rfl⟩⟩
  rcases lt_trichotomy first.rank second.rank with h | h | h
  · simp [h, h.ne, h.not_gt]
  · simp [h]
  · simp [h, h.ne', h.not_gt]

end BundleVersion

/-! ## Bundles -/

/-- What `Contents/Info.plist` says of the keys that are read. -/
structure BundleInfo where
  bundleIdentifier : Option String
  executable : Option String
  packageType : Option String
  shortVersionString : Option String
  rustAdminRevision : Option String
  bundleVersion : Option String
  deriving DecidableEq

/-- An application bundle, with all else that is in it as `κ`. -/
structure Bundle (κ : Type) where
  info : Option BundleInfo
  executable : Bool
  files : κ
  /-- Its files belong to the user. -/
  owned : Bool
  quarantined : Bool
  deriving DecidableEq

/-- What was copied into it, whoever owns it. -/
def Bundle.payload {κ : Type} (bundle : Bundle κ) : Option BundleInfo × Bool × κ :=
  (bundle.info, bundle.executable, bundle.files)

structure UpdaterProduct where
  appName : String
  bundleIdentifier : String
  serviceIdentifier : String

def UpdaterProduct.rustAdmin : UpdaterProduct where
  appName := "RustAdmin"
  bundleIdentifier := "io.github.rustadministrator.rustadmin"
  serviceIdentifier := "io.github.rustadministrator.rustadmin"

inductive BundleMetadataError
  | missingBundle
  | unreadableInfoPlist
  | missingProductIdentity
  | wrongProduct (expected : String) (actual : Option String)
  | wrongExecutable (expected : String) (actual : Option String)
  | missingExecutable
  | invalidVersion
  | invalidRevision

def BundleMetadataError.reason : BundleMetadataError → String
  | .missingBundle => "The application bundle directory is missing."
  | .unreadableInfoPlist => "Contents/Info.plist could not be read."
  | .missingProductIdentity => "The application does not declare a product identity."
  | .wrongProduct expected actual =>
      "Expected bundle identifier " ++ expected ++ ", found " ++ actual.getD "missing" ++ "."
  | .wrongExecutable expected actual =>
      "Expected executable " ++ expected ++ ", found " ++ actual.getD "missing" ++ "."
  | .missingExecutable => "The application executable is missing or not executable."
  | .invalidVersion =>
      "CFBundleShortVersionString must contain numeric dot-separated components."
  | .invalidRevision =>
      "RustAdminRevision or CFBundleVersion must contain a numeric revision."

structure BundleMetadata where
  bundleIdentifier : String
  executableName : String
  shortVersionString : String
  revisionString : String
  version : BundleVersion

variable {κ : Type}

namespace BundleMetadata

/-- The checks of `load` up to the executable. -/
def identifiedInfo (bundle : Option (Bundle κ)) (product : UpdaterProduct) :
    Except BundleMetadataError BundleInfo := do
  let some bundle := bundle | throw .missingBundle
  let some info := bundle.info | throw .unreadableInfoPlist
  let some bundleIdentifier := info.bundleIdentifier | throw .missingProductIdentity
  if bundleIdentifier = "" then throw .missingProductIdentity
  if bundleIdentifier ≠ product.bundleIdentifier then
    throw (.wrongProduct product.bundleIdentifier (some bundleIdentifier))
  if info.executable ≠ some product.appName then
    throw (.wrongExecutable product.appName info.executable)
  if let some packageType := info.packageType then
    if packageType ≠ "APPL" then throw (.wrongExecutable "APPL bundle" (some packageType))
  if !bundle.executable then throw .missingExecutable
  return info

/-- The rest of `load`, which reads the version. -/
def ofInfo (info : BundleInfo) (product : UpdaterProduct) :
    Except BundleMetadataError BundleMetadata :=
  match info.shortVersionString with
  | none => .error .invalidVersion
  | some shortVersion =>
      match NumericVersion.parse shortVersion with
      | none => .error .invalidVersion
      | some numericVersion =>
          match info.rustAdminRevision <|> info.bundleVersion with
          | none => .error .invalidRevision
          | some revisionValue =>
              match parseUInt64 (trimmingWhitespace revisionValue) with
              | none => .error .invalidRevision
              | some revision =>
                  let shortVersionString := String.ofList (trimmingWhitespace shortVersion)
                  let revisionString := String.ofList (trimmingWhitespace revisionValue)
                  .ok ⟨product.bundleIdentifier, product.appName, shortVersionString,
                    revisionString, numericVersion, revision, shortVersionString, revisionString⟩

def load (bundle : Option (Bundle κ)) (product : UpdaterProduct) :
    Except BundleMetadataError BundleMetadata := do
  let info ← identifiedInfo bundle product
  ofInfo info product

/-- The version is the one of its texts. -/
def Parsed (metadata : BundleMetadata) : Prop :=
  ∃ shortVersion revision : String,
    metadata.shortVersionString = String.ofList (trimmingWhitespace shortVersion) ∧
      metadata.revisionString = String.ofList (trimmingWhitespace revision) ∧
      NumericVersion.parse shortVersion = some metadata.version.numericVersion ∧
      parseUInt64 (trimmingWhitespace revision) = some metadata.version.revision

theorem parsed_ofInfo {info : BundleInfo} {product : UpdaterProduct} {metadata : BundleMetadata}
    (h : ofInfo info product = .ok metadata) : metadata.Parsed := by
  unfold ofInfo at h
  split at h
  · cases h
  · next shortVersion _ =>
      split at h
      · cases h
      · next numericVersion hparse =>
          split at h
          · cases h
          · next revisionValue _ =>
              split at h
              · cases h
              · next revision hrevision =>
                  obtain rfl := Except.ok.inj h
                  exact ⟨shortVersion, revisionValue, rfl, rfl, hparse, hrevision⟩

theorem parsed_of_load {bundle : Option (Bundle κ)} {product : UpdaterProduct}
    {metadata : BundleMetadata} (h : load bundle product = .ok metadata) : metadata.Parsed := by
  unfold load at h
  cases hinfo : identifiedInfo bundle product with
  | error err => simp [hinfo, bind, Except.bind] at h
  | ok info => exact parsed_ofInfo (by simpa [hinfo, bind, Except.bind] using h)

/-- The texts of a version determine its place in the order. -/
theorem rank_eq_of_texts {lhs rhs : BundleMetadata} (hlhs : lhs.Parsed) (hrhs : rhs.Parsed)
    (hversion : lhs.shortVersionString = rhs.shortVersionString)
    (hrevision : lhs.revisionString = rhs.revisionString) :
    lhs.version.rank = rhs.version.rank := by
  obtain ⟨short, text, hshort, htext, hparse, hvalue⟩ := hlhs
  obtain ⟨short', text', hshort', htext', hparse', hvalue'⟩ := hrhs
  rw [hshort, hshort', String.ofList_inj] at hversion
  rw [htext, htext', String.ofList_inj] at hrevision
  have hnumeric : lhs.version.numericVersion = rhs.version.numericVersion := by
    unfold NumericVersion.parse at hparse hparse'
    rw [hversion, hparse'] at hparse
    exact (Option.some.inj hparse).symm
  have hnumber : lhs.version.revision = rhs.version.revision := by
    rw [hrevision, hvalue'] at hvalue
    exact (Option.some.inj hvalue).symm
  rw [BundleVersion.rank, BundleVersion.rank, hnumeric, hnumber]

end BundleMetadata

inductive UpdateError
  | sameBundle
  | invalidSource (reason : String)
  | missingTarget
  | invalidTarget (reason : String)
  | sourceNotNewer (source target : BundleVersion)

structure UpdateRequest where
  product : UpdaterProduct
  sourceInfo : BundleMetadata
  targetInfo : BundleMetadata

namespace UpdateRequest

/-- `make`, of what is at the source and at the target, and whether their resolved paths are
one. -/
def make (samePath : Bool) (source target : Option (Bundle κ)) (product : UpdaterProduct) :
    Except UpdateError UpdateRequest :=
  if samePath then .error .sameBundle
  else
    match BundleMetadata.load source product with
    | .error err => .error (.invalidSource err.reason)
    | .ok sourceInfo =>
        if target.isNone then .error .missingTarget
        else
          match BundleMetadata.load target product with
          | .error err => .error (.invalidTarget err.reason)
          | .ok targetInfo =>
              if targetInfo.version.less sourceInfo.version then
                .ok ⟨product, sourceInfo, targetInfo⟩
              else .error (.sourceNotNewer sourceInfo.version targetInfo.version)

theorem make_eq_ok {samePath : Bool} {source target : Option (Bundle κ)}
    {product : UpdaterProduct} {request : UpdateRequest}
    (h : make samePath source target product = .ok request) :
    samePath = false ∧ request.product = product ∧
      BundleMetadata.load source product = .ok request.sourceInfo ∧
      BundleMetadata.load target product = .ok request.targetInfo ∧
      request.targetInfo.version.rank < request.sourceInfo.version.rank := by
  unfold make at h
  split at h
  · cases h
  · next hpath =>
      split at h
      · cases h
      · next sourceInfo hsource =>
          split at h
          · cases h
          · split at h
            · cases h
            · next targetInfo htarget =>
                split at h
                · next hnewer =>
                    obtain rfl := Except.ok.inj h
                    exact ⟨by simpa using hpath, rfl, hsource, htarget,
                      BundleVersion.less_iff.mp hnewer⟩
                · cases h

/-- What is installed and what it is updated to have different texts. -/
theorem texts_ne_of_make {samePath : Bool} {source target : Option (Bundle κ)}
    {product : UpdaterProduct} {request : UpdateRequest}
    (h : make samePath source target product = .ok request) :
    ¬ (request.sourceInfo.shortVersionString = request.targetInfo.shortVersionString ∧
      request.sourceInfo.revisionString = request.targetInfo.revisionString) := by
  obtain ⟨-, -, hsource, htarget, hless⟩ := make_eq_ok h
  rintro ⟨hversion, hrevision⟩
  have hrank := BundleMetadata.rank_eq_of_texts (BundleMetadata.parsed_of_load htarget)
    (BundleMetadata.parsed_of_load hsource) hversion.symm hrevision.symm
  exact absurd hrank hless.ne

/-- One bundle is newer than another. -/
def Newer (product : UpdaterProduct) (old new : Bundle κ) : Prop :=
  ∃ older newer, BundleMetadata.load (some old) product = .ok older ∧
    BundleMetadata.load (some new) product = .ok newer ∧
    older.version.less newer.version = true

theorem newer_of_make {samePath : Bool} {old new : Bundle κ} {product : UpdaterProduct}
    {request : UpdateRequest} (h : make samePath (some new) (some old) product = .ok request) :
    Newer product old new := by
  obtain ⟨-, -, hsource, htarget, hless⟩ := make_eq_ok h
  exact ⟨_, _, htarget, hsource, BundleVersion.less_iff.mpr hless⟩

theorem Newer.trans {product : UpdaterProduct} {first second third : Bundle κ}
    (h : Newer product first second) (h' : Newer product second third) :
    Newer product first third := by
  obtain ⟨older, middle, holder, hmiddle, hless⟩ := h
  obtain ⟨middle', newer, hmiddle', hnewer, hless'⟩ := h'
  obtain rfl := Except.ok.inj (hmiddle.symm.trans hmiddle')
  exact ⟨older, newer, holder, hnewer,
    BundleVersion.less_iff.mpr ((BundleVersion.less_iff.mp hless).trans
      (BundleVersion.less_iff.mp hless'))⟩

theorem Newer.asymm {product : UpdaterProduct} {old new : Bundle κ} (h : Newer product old new) :
    ¬ Newer product new old := by
  intro h'
  obtain ⟨older, newer, holder, hnewer, hless⟩ := h.trans h'
  obtain rfl := Except.ok.inj (holder.symm.trans hnewer)
  exact absurd (BundleVersion.less_iff.mp hless) (lt_irrefl _)

/-- Over any sequence of updates the versions ascend, and no bundle that was replaced is ever
an update again. -/
theorem updates_ascend {product : UpdaterProduct} {bundles : List (Bundle κ)}
    (h : bundles.IsChain fun old new => ∃ samePath request,
      make samePath (some new) (some old) product = .ok request) :
    bundles.Pairwise fun old new => Newer product old new ∧
      ∀ samePath request, make samePath (some old) (some new) product ≠ .ok request := by
  have hchain : bundles.IsChain (Newer product) :=
    h.imp fun _ _ ⟨_, _, hmake⟩ => newer_of_make hmake
  have htrans : IsTrans (Bundle κ) (Newer product) := ⟨fun _ _ _ => Newer.trans⟩
  refine (List.isChain_iff_pairwise.mp hchain).imp fun hnewer => ⟨hnewer, ?_⟩
  exact fun samePath request hmake => hnewer.asymm (newer_of_make hmake)

/-- A bundle of RustAdmin with this version. -/
def releaseOf (version revision : String) : Bundle Unit where
  info := some ⟨some UpdaterProduct.rustAdmin.bundleIdentifier,
    some UpdaterProduct.rustAdmin.appName, some "APPL", some version, some revision, none⟩
  executable := true
  files := ()
  owned := true
  quarantined := false

theorem updates_ascend_releases :
    [releaseOf "2.0.9" "190", releaseOf "2.0.9.0" "191", releaseOf "2.0.10" "7"].Pairwise
      fun old new => Newer UpdaterProduct.rustAdmin old new ∧ ∀ samePath request,
        make samePath (some old) (some new) UpdaterProduct.rustAdmin ≠ .ok request :=
  updates_ascend (.cons_cons ⟨false, _, rfl⟩ (.cons_cons ⟨false, _, rfl⟩ (.singleton _)))

end UpdateRequest

end RustAdmin.Updater
