import GenSubnet.Library.Objects

/-!
# The view of THREE that a submission gets

`createSafeThree` of `render-service-js/src/safeThree.js`: a proxy over an object with the allowed
members of the namespace, in which a member with blocked submembers is a proxy of its own.
-/

namespace GenSubnet.Render
open Library Library.Objects

/-! ## `threeAllowlist.js` -/

def threeAllowed : List String :=
  ["BufferGeometry", "BufferAttribute", "InterleavedBuffer", "InterleavedBufferAttribute",
    "Float32BufferAttribute", "Uint8BufferAttribute", "Uint16BufferAttribute",
    "Uint32BufferAttribute", "Int8BufferAttribute", "Int16BufferAttribute", "Int32BufferAttribute",
    "BoxGeometry", "SphereGeometry", "CylinderGeometry", "CapsuleGeometry", "ConeGeometry",
    "TorusGeometry", "TorusKnotGeometry", "PlaneGeometry", "CircleGeometry", "RingGeometry",
    "TetrahedronGeometry", "OctahedronGeometry", "DodecahedronGeometry", "IcosahedronGeometry",
    "PolyhedronGeometry", "ExtrudeGeometry", "LatheGeometry", "ShapeGeometry", "TubeGeometry",
    "EdgesGeometry", "WireframeGeometry", "MeshStandardMaterial", "MeshPhysicalMaterial",
    "MeshBasicMaterial", "PointsMaterial", "LineBasicMaterial", "LineDashedMaterial",
    "DataTexture", "Vector2", "Vector3", "Vector4", "Matrix3", "Matrix4", "Quaternion", "Euler",
    "Box2", "Box3", "Sphere", "Plane", "Ray", "Line3", "Triangle", "Spherical", "Cylindrical",
    "Color", "MathUtils", "Curve", "CurvePath", "Shape", "Path", "CatmullRomCurve3",
    "CubicBezierCurve3", "LineCurve3", "QuadraticBezierCurve3", "EllipseCurve", "ArcCurve",
    "LineCurve", "SplineCurve", "QuadraticBezierCurve", "CubicBezierCurve", "Object3D", "Group",
    "Mesh", "InstancedMesh", "Line", "LineSegments", "Points", "SRGBColorSpace",
    "LinearSRGBColorSpace", "NoColorSpace", "FrontSide", "BackSide", "DoubleSide",
    "NormalBlending", "AdditiveBlending", "SubtractiveBlending", "MultiplyBlending", "NoBlending",
    "NearestFilter", "LinearFilter", "NearestMipmapNearestFilter", "LinearMipmapNearestFilter",
    "NearestMipmapLinearFilter", "LinearMipmapLinearFilter", "RepeatWrapping",
    "ClampToEdgeWrapping", "MirroredRepeatWrapping", "RGBAFormat", "RGBFormat", "RGFormat",
    "RedFormat", "LuminanceFormat", "UnsignedByteType", "HalfFloatType", "FloatType",
    "StaticDrawUsage", "DynamicDrawUsage", "StreamDrawUsage"]

def threeBlockedSubmembers : List (String × List String) :=
  [("MathUtils", ["seededRandom", "generateUUID"])]

def threeDisallowedKnown : List String :=
  ["AmbientLight", "DirectionalLight", "PointLight", "SpotLight", "HemisphereLight",
    "RectAreaLight", "LightProbe", "AmbientLightProbe", "HemisphereLightProbe",
    "DirectionalLightShadow", "PointLightShadow", "SpotLightShadow", "LightShadow", "Loader",
    "LoadingManager", "FileLoader", "TextureLoader", "ImageLoader", "ImageBitmapLoader",
    "CubeTextureLoader", "DataTextureLoader", "BufferGeometryLoader", "MaterialLoader",
    "ObjectLoader", "FontLoader", "AudioLoader", "AnimationLoader", "CompressedTextureLoader",
    "GLTFLoader", "OBJLoader", "MTLLoader", "FBXLoader", "ColladaLoader", "STLLoader", "PLYLoader",
    "3MFLoader", "DRACOLoader", "KTX2Loader", "KTXLoader", "RGBELoader", "EXRLoader",
    "HDRCubeTextureLoader", "BasisTextureLoader", "TGALoader", "TIFFLoader", "SVGLoader",
    "USDZLoader", "VRMLLoader", "XYZLoader", "ShaderMaterial", "RawShaderMaterial",
    "MeshPhongMaterial", "MeshLambertMaterial", "MeshToonMaterial", "MeshNormalMaterial",
    "MeshMatcapMaterial", "MeshDepthMaterial", "MeshDistanceMaterial", "ShadowMaterial",
    "SpriteMaterial", "Material", "Texture", "CanvasTexture", "VideoTexture", "CompressedTexture",
    "CompressedArrayTexture", "CompressedCubeTexture", "CubeTexture", "Data3DTexture",
    "DataArrayTexture", "DepthTexture", "FramebufferTexture", "WebGLRenderer", "WebGL1Renderer",
    "WebGLRenderTarget", "WebGL3DRenderTarget", "WebGLArrayRenderTarget", "WebGLCubeRenderTarget",
    "WebGLMultipleRenderTargets", "Camera", "PerspectiveCamera", "OrthographicCamera",
    "ArrayCamera", "StereoCamera", "CubeCamera", "Scene", "Fog", "FogExp2", "AnimationMixer",
    "AnimationAction", "AnimationClip", "AnimationObjectGroup", "AnimationUtils", "KeyframeTrack",
    "NumberKeyframeTrack", "VectorKeyframeTrack", "QuaternionKeyframeTrack", "ColorKeyframeTrack",
    "StringKeyframeTrack", "BooleanKeyframeTrack", "PropertyBinding", "PropertyMixer", "Bone",
    "Skeleton", "SkinnedMesh", "SkeletonHelper", "Audio", "PositionalAudio", "AudioAnalyser",
    "AudioContext", "AudioListener", "Sprite", "LOD", "BatchedMesh", "ArrowHelper", "AxesHelper",
    "BoxHelper", "Box3Helper", "CameraHelper", "GridHelper", "PolarGridHelper",
    "HemisphereLightHelper", "DirectionalLightHelper", "PointLightHelper", "SpotLightHelper",
    "PlaneHelper", "Raycaster", "Clock", "EventDispatcher", "Layers"]

/-! ## The namespace -/

/-- The graph of the objects of THREE and of the language. -/
structure Realm (O : Type) where
  graph : Graph O
  /-- The members of the namespace. -/
  three : String → Option (Value O)
  objectPrototype : O
  top : (graph.heap objectPrototype).proto = none
  /-- What an empty object literal is, for the getters that the proxies' objects inherit. -/
  plain : O
  plainIs : graph.heap plain = { proto := some objectPrototype }
  /-- An assignment to a literal makes a property of its own: the accessors of `Object.prototype`
  have other names than the members. -/
  memberAssigns : ∀ {name : String} {v : Value O}, three name = some v →
    ∀ get set enumerable,
      (graph.heap objectPrototype).own.get (.str name) ≠ some (.accessor get set enumerable)
  /-- The same for the properties of the members. -/
  propertyAssigns : ∀ {name : String} {o : O} {key : Key} {d : Descriptor O},
    three name = some (.obj o) → (graph.heap o).own.get key = some d →
      ∀ get set enumerable,
        (graph.heap objectPrototype).own.get key ≠ some (.accessor get set enumerable)

structure SafeThreeConfig where
  allowed : List String
  disallowedKnown : List String
  blockedSubmembers : List (String × List String)

/-- A value of the graph, the proxy that a submission gets, or one of its submembers. -/
inductive Thing (O : Type)
  | value (v : Value O)
  | safeThree
  | safeSubmember (parentName : String)
deriving DecidableEq

variable {O : Type} (realm : Realm O) (config : SafeThreeConfig)

/-- `toBlockedMap` -/
def SafeThreeConfig.blocked (config : SafeThreeConfig) (name : String) : List String :=
  (Dict.ofList config.blockedSubmembers).get name |>.getD []

/-- What a plain object inherits. -/
def Realm.inherits (key : Key) : Option (Value O) :=
  ((realm.graph.heap realm.objectPrototype).own.get key).map (realm.graph.valueOf (.obj realm.plain))

/-- The own properties of `filtered` in `makeSafeSubmember`. -/
def Realm.filtered (realObj : Value O) (blocked : List String) (k : String) : Option (Value O) :=
  match realObj with
  | .prim _ => none
  | .obj o =>
      if (realm.graph.heap o).callable = true ∨ k ∈ blocked then none
      else
        (((realm.graph.heap o).own.get (.str k)).filter Descriptor.enumerable).map
          (realm.graph.valueOf (.obj o))

/-- `buildAllowedBackingObject` -/
def Realm.backing (name : String) : Option (Thing O) :=
  if name ∈ config.allowed then
    (realm.three name).map fun member =>
      if config.blocked name ≠ [] then .safeSubmember name else .value member
  else none

/-- The object behind the proxy of a submember. -/
def Realm.submember (parentName k : String) : Option (Value O) :=
  (realm.three parentName).bind fun realObj => realm.filtered realObj (config.blocked parentName) k

/-! ### `makeSafeSubmember` -/

def Realm.getSubmember (parentName : String) : Key → Except String (Value O)
  | .sym name => .ok ((realm.inherits (.sym name)).getD (.prim .undefined))
  | .str prop =>
      if prop ∈ config.blocked parentName then
        .error ("THREE." ++ parentName ++ "." ++ prop ++ " is forbidden")
      else
        .ok (((realm.submember config parentName prop).or (realm.inherits (.str prop))).getD
          (.prim .undefined))

/-- `getOwnPropertyDescriptor`, as the value of the descriptor. -/
def Realm.describeSubmember (parentName : String) : Key → Option (Value O)
  | .sym _ => none
  | .str prop => realm.submember config parentName prop

/-! ### `wrapWithProxy` -/

def Realm.getSafeThree : Key → Except String (Thing O)
  | .sym name => .ok (.value ((realm.inherits (.sym name)).getD (.prim .undefined)))
  | .str prop =>
      match (realm.backing config prop).or ((realm.inherits (.str prop)).map .value) with
      | some thing => .ok thing
      | none =>
          if prop ∈ config.disallowedKnown then .error ("THREE." ++ prop ++ " is forbidden")
          else if prop ∈ config.allowed then .ok (.value (.prim .undefined))
          else .error ("THREE." ++ prop ++ " is not a recognized Three.js API")

def Realm.describeSafeThree : Key → Option (Thing O)
  | .sym _ => none
  | .str prop => if prop ∉ config.allowed then none else realm.backing config prop

/-! ## What a submission obtains -/

/-- One read. What enumerations give are primitives. -/
inductive Realm.Access : Thing O → Thing O → Prop
  | value {v w : Value O} (reads : realm.graph.Reads v w) : Access (.value v) (.value w)
  | get {key : Key} {thing : Thing O} (got : realm.getSafeThree config key = .ok thing) :
      Access .safeThree thing
  | descriptor {key : Key} {thing : Thing O} (has : realm.describeSafeThree config key = some thing) :
      Access .safeThree thing
  | prototype : Access .safeThree (.value (.obj realm.objectPrototype))
  | getSubmember {parentName : String} {key : Key} {v : Value O}
      (got : realm.getSubmember config parentName key = .ok v) :
      Access (.safeSubmember parentName) (.value v)
  | submemberDescriptor {parentName : String} {key : Key} {v : Value O}
      (has : realm.describeSubmember config parentName key = some v) :
      Access (.safeSubmember parentName) (.value v)
  | submemberPrototype {parentName : String} :
      Access (.safeSubmember parentName) (.value (.obj realm.objectPrototype))

/-- What a sequence of reads obtains from `buildSafeThreeWithConfig`. -/
inductive Realm.Obtained : Thing O → Prop
  | safeThree : Obtained .safeThree
  | prim (p : Prim) : Obtained (.value (.prim p))
  | access {t u : Thing O} (obtained : Obtained t) (access : realm.Access config t u) : Obtained u

/-- A member that is known and not allowed, or a submember that is blocked. -/
inductive Realm.Forbidden : O → Prop
  | member {name : String} {o : O} (known : name ∈ config.disallowedKnown)
      (is : realm.three name = some (.obj o)) : Forbidden o
  | submember {parentName k : String} {parent o : O} {d : Descriptor O}
      (blocked : k ∈ config.blocked parentName) (is : realm.three parentName = some (.obj parent))
      (has : (realm.graph.heap parent).own.get (.str k) = some d)
      (value : realm.graph.valueOf (.obj parent) d = .obj o) : Forbidden o

/-- Nothing forbidden is obtained. -/
def Realm.Bounded : Prop := ∀ o, realm.Forbidden config o → ¬realm.Obtained config (.value (.obj o))

/-- `createSafeThree` -/
def createSafeThree : SafeThreeConfig := ⟨threeAllowed, threeDisallowedKnown, threeBlockedSubmembers⟩

end GenSubnet.Render
