import GenSubnet.Render.SafeThree

/-!
# The boundary of the view of THREE

The proxies filter what is read on them; what is read on the values they give is not filtered. What
a submission obtains is what reads of the graph of THREE obtain from the exposed values.
-/

namespace GenSubnet.Render
open Library Library.Objects

variable {O : Type} (realm : Realm O) (config : SafeThreeConfig)

/-- What the proxies give, apart from primitives. -/
inductive Realm.Exposed : Value O → Prop
  | member {name : String} {v : Value O} (allowed : name ∈ config.allowed)
      (whole : config.blocked name = []) (is : realm.three name = some v) : Exposed v
  | submember {parentName k : String} {v : Value O} (allowed : parentName ∈ config.allowed)
      (filters : config.blocked parentName ≠ [])
      (is : realm.submember config parentName k = some v) : Exposed v
  | objectPrototype : Exposed (.obj realm.objectPrototype)
  | inherited {key : Key} {v : Value O} (is : realm.inherits key = some v) : Exposed v

/-- The class hierarchy of THREE, as far as the textures go. -/
structure Realm.Extends (texture : O) : Prop where
  is : realm.three "Texture" = some (.obj texture)
  extended : ∃ dataTexture, realm.three "DataTexture" = some (.obj dataTexture) ∧
    (realm.graph.heap dataTexture).proto = some texture

/-! ## What is obtained -/

section
variable {realm config}

/-- What a value that a submission has come to is. -/
def Realm.Within (realm : Realm O) (config : SafeThreeConfig) : Thing O → Prop
  | .value v => realm.graph.Obtains (realm.Exposed config) v
  | .safeThree => True
  | .safeSubmember parentName => parentName ∈ config.allowed ∧ config.blocked parentName ≠ []

theorem Realm.within_prim (p : Prim) : realm.Within config (.value (.prim p)) := .prim p

theorem Realm.within_inherits {key : Key} :
    realm.Within config (.value ((realm.inherits key).getD (.prim .undefined))) := by
  cases is : realm.inherits key with
  | none => exact realm.within_prim .undefined
  | some v => exact .root (.inherited is)

theorem Realm.within_backing {name : String} {thing : Thing O}
    (is : realm.backing config name = some thing) : realm.Within config thing := by
  simp only [Realm.backing] at is
  split at is
  · rename_i allowed
    obtain ⟨member, three, rfl⟩ := Option.map_eq_some_iff.mp is
    by_cases whole : config.blocked name = []
    · simpa [whole] using .root (.member allowed whole three)
    · simpa [whole] using ⟨allowed, whole⟩
  · cases is

theorem Realm.within_getSafeThree {key : Key} {thing : Thing O}
    (got : realm.getSafeThree config key = .ok thing) : realm.Within config thing := by
  cases key with
  | sym name =>
      cases got
      exact realm.within_inherits
  | str prop =>
      simp only [Realm.getSafeThree] at got
      split at got
      · rename_i found is
        cases got
        cases backing : realm.backing config prop with
        | some thing =>
            rw [backing, Option.some_or, Option.some.injEq] at is
            exact is ▸ within_backing backing
        | none =>
            rw [backing, Option.none_or] at is
            obtain ⟨v, inherits, rfl⟩ := Option.map_eq_some_iff.mp is
            exact .root (.inherited inherits)
      · split at got
        · cases got
        · split at got
          · cases got
            exact realm.within_prim .undefined
          · cases got

theorem Realm.within_getSubmember {parentName : String} {key : Key} {v : Value O}
    (parent : realm.Within config (.safeSubmember parentName))
    (got : realm.getSubmember config parentName key = .ok v) : realm.Within config (.value v) := by
  cases key with
  | sym name =>
      cases got
      exact realm.within_inherits
  | str prop =>
      simp only [Realm.getSubmember] at got
      split at got
      · cases got
      · cases got
        cases is : realm.submember config parentName prop with
        | some w => exact .root (.submember parent.1 parent.2 is)
        | none => exact realm.within_inherits

theorem Realm.within_access {t u : Thing O} (within : realm.Within config t)
    (access : realm.Access config t u) : realm.Within config u := by
  cases access with
  | value reads => exact .read within reads
  | get got => exact within_getSafeThree got
  | @descriptor key thing has =>
      cases key with
      | sym name => cases has
      | str prop =>
          simp only [Realm.describeSafeThree] at has
          split at has
          · cases has
          · exact within_backing has
  | prototype => exact .root .objectPrototype
  | getSubmember got => exact within_getSubmember within got
  | @submemberDescriptor parentName key v has =>
      cases key with
      | sym name => cases has
      | str prop => exact .root (.submember within.1 within.2 has)
  | submemberPrototype => exact .root .objectPrototype

theorem Realm.within_obtained {t : Thing O} (obtained : realm.Obtained config t) :
    realm.Within config t := by
  induction obtained with
  | safeThree => trivial
  | prim p => exact realm.within_prim p
  | access _ access ih => exact within_access ih access

theorem Realm.obtained_backing {name : String} {thing : Thing O}
    (is : realm.backing config name = some thing) : realm.Obtained config thing := by
  have allowed : name ∈ config.allowed := by
    simp only [Realm.backing] at is
    split at is
    · assumption
    · cases is
  have has : realm.describeSafeThree config (.str name) = some thing := by
    simp [Realm.describeSafeThree, allowed, is]
  exact .access .safeThree (.descriptor has)

/-- A property that the objects of the proxies inherit is read on the proxy, or, where the proxy has
a member of that name, on `Object.prototype`. -/
theorem Realm.obtained_inherits {key : Key} {v : Value O} (is : realm.inherits key = some v) :
    realm.Obtained config (.value v) := by
  cases key with
  | sym name =>
      have got : realm.getSafeThree config (.sym name) = .ok (.value v) := by
        simp [Realm.getSafeThree, is]
      exact .access .safeThree (.get got)
  | str prop =>
      cases backing : realm.backing config prop with
      | none =>
          have got : realm.getSafeThree config (.str prop) = .ok (.value v) := by
            simp [Realm.getSafeThree, backing, is]
          exact .access .safeThree (.get got)
      | some thing =>
          obtain ⟨d, has, rfl⟩ := Option.map_eq_some_iff.mp is
          cases d with
          | data value enumerable =>
              have reads : realm.graph.Reads (.obj realm.objectPrototype) value :=
                .descriptor has (List.mem_singleton.mpr rfl)
              exact .access (.access .safeThree .prototype) (.value reads)
          | accessor get set enumerable =>
              simp only [Realm.backing] at backing
              split at backing
              · obtain ⟨member, three, -⟩ := Option.map_eq_some_iff.mp backing
                exact absurd has (realm.memberAssigns three get set enumerable)
              · cases backing

theorem Realm.obtained_exposed {v : Value O} (exposed : realm.Exposed config v) :
    realm.Obtained config (.value v) := by
  cases exposed with
  | @member name v allowed whole is =>
      have backing : realm.backing config name = some (.value v) := by
        simp [Realm.backing, allowed, is, whole]
      exact obtained_backing backing
  | @submember parentName k v allowed filters is =>
      obtain ⟨parent, three, -⟩ := Option.bind_eq_some_iff.mp is
      have backing : realm.backing config parentName = some (.safeSubmember parentName) := by
        simp [Realm.backing, allowed, three, filters]
      have has : realm.describeSubmember config parentName (.str k) = some v := is
      exact .access (obtained_backing backing) (.submemberDescriptor has)
  | objectPrototype => exact .access .safeThree .prototype
  | inherited is => exact obtained_inherits is

theorem Realm.obtained_of_obtains {v : Value O}
    (obtains : realm.graph.Obtains (realm.Exposed config) v) :
    realm.Obtained config (.value v) := by
  induction obtains with
  | root exposed => exact obtained_exposed exposed
  | prim p => exact .prim p
  | read _ reads ih => exact .access ih (.value reads)

theorem Realm.obtained_value_iff {v : Value O} :
    realm.Obtained config (.value v) ↔ realm.graph.Obtains (realm.Exposed config) v :=
  ⟨fun obtained => within_obtained obtained, obtained_of_obtains⟩

theorem Realm.bounded_iff :
    realm.Bounded config ↔
      ∀ o, realm.Forbidden config o → ¬realm.graph.Obtains (realm.Exposed config) (.obj o) := by
  simp only [Realm.Bounded, obtained_value_iff]

theorem Realm.obtained_texture {texture : O} (hierarchy : realm.Extends texture) :
    realm.Obtained createSafeThree (.value (.obj texture)) := by
  obtain ⟨dataTexture, is, proto⟩ := hierarchy.extended
  have exposed : realm.Exposed createSafeThree (.obj dataTexture) :=
    .member (by decide) (by decide) is
  have reads : realm.graph.Reads (.obj dataTexture) (.obj texture) := .prototype rfl proto
  exact .access (obtained_exposed exposed) (.value reads)

end

/-- The view keeps what is forbidden from a submission exactly where the exposed values do not lead
to it in the graph of THREE itself. In the class hierarchy of THREE they do. -/
theorem safeThree_bounded :
    (realm.Bounded createSafeThree ↔
      ∀ o, realm.Forbidden createSafeThree o →
        ¬realm.graph.Obtains (realm.Exposed createSafeThree) (.obj o)) ∧
      ∀ texture, realm.Extends texture → ¬realm.Bounded createSafeThree := by
  refine ⟨Realm.bounded_iff, fun texture hierarchy bounded => ?_⟩
  have forbidden : realm.Forbidden createSafeThree texture := .member (by decide) hierarchy.is
  exact bounded texture forbidden (Realm.obtained_texture hierarchy)

/-! ## The textures and materials of THREE -/

inductive Node
  | objectPrototype
  | functionPrototype
  | plain
  | eventDispatcher
  | texture
  | dataTexture
  | material
  | meshBasicMaterial
deriving DecidableEq

def Node.object : Node → Object Node
  | .objectPrototype => {}
  | .functionPrototype => { proto := some .objectPrototype, callable := true }
  | .plain => { proto := some .objectPrototype }
  | .eventDispatcher => { proto := some .functionPrototype, callable := true }
  | .texture => { proto := some .eventDispatcher, callable := true }
  | .dataTexture => { proto := some .texture, callable := true }
  | .material => { proto := some .eventDispatcher, callable := true }
  | .meshBasicMaterial => { proto := some .material, callable := true }

def Node.member (name : String) : Option (Value Node) :=
  (Dict.ofList [("EventDispatcher", eventDispatcher), ("Texture", texture),
    ("DataTexture", dataTexture), ("Material", material),
    ("MeshBasicMaterial", meshBasicMaterial)]).get name |>.map .obj

/-- The classes that the textures and the basic material extend. -/
def classes : Realm Node where
  graph := ⟨Node.object, fun _ _ => .prim .undefined, fun _ => none⟩
  three := Node.member
  objectPrototype := .objectPrototype
  top := rfl
  plain := .plain
  plainIs := rfl
  memberAssigns := by
    intro name v is get set enumerable has
    simp [Node.object, Dict.empty, Dict.get, lookupIn] at has
  propertyAssigns := by
    intro name o key d is has get set enumerable found
    simp [Node.object, Dict.empty, Dict.get, lookupIn] at found

/-- `Object.getPrototypeOf(THREE.DataTexture)` is `THREE.Texture`. -/
theorem classes_not_bounded : ¬classes.Bounded createSafeThree := by
  intro bounded
  have got : classes.getSafeThree createSafeThree (.str "DataTexture") =
      .ok (.value (.obj .dataTexture)) := by decide +kernel
  have dataTexture : classes.Obtained createSafeThree (.value (.obj .dataTexture)) :=
    .access .safeThree (.get got)
  have reads : classes.graph.Reads (.obj .dataTexture) (.obj .texture) := .prototype rfl rfl
  have known : "Texture" ∈ createSafeThree.disallowedKnown := by decide
  have forbidden : classes.Forbidden createSafeThree .texture := .member known (by decide)
  exact bounded .texture forbidden (.access dataTexture (.value reads))

end GenSubnet.Render
