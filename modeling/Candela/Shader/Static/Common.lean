import Candela.Shader.Declaration

/-!
# Common declarations

Types, constants and small functions that every other part of a shading library uses. Generated code
refers to the structs and to the functions that convert data and make closures; these are
declarations, the rest is text.
-/

namespace Candela.Shader.Static

/-! ## Structs -/

/-- What a shaded point does with light. -/
def closure : Struct where
  name := "Closure"
  fields :=
    [("diffuse", "vec3f"), ("roughness", "f32"), ("specular", "vec3f"), ("ior", "f32"),
     ("transmission", "vec3f"), ("transparent", "vec3f"), ("emission", "vec3f")]

/-- The point that is shaded. -/
def shadingContext : Struct where
  name := "ShadingContext"
  fields :=
    [("position", "vec3f"), ("normal", "vec3f"), ("true_normal", "vec3f"), ("tangent", "vec3f"),
     ("wo", "vec3f"), ("uv", "vec3f"), ("generated", "vec3f"), ("object", "vec3f"),
     ("distance", "f32"), ("ray_flags", "u32"), ("ray_depth", "u32"), ("backfacing", "bool"),
     ("material", "Closure")]

/-- A stop of a color ramp. -/
def rampElement : Struct where
  name := "RampElement"
  fields := [("position", "f32"), ("color", "vec4f")]

/-- The structs, in the order in which they are declared. -/
def structs : List Struct := [closure, shadingContext, rampElement]

/-! ## Data conversions -/

def luminance : Helper where
  name := "luminance"
  parameters := [("c", "vec3f")]
  result := "f32"
  body := ["return dot(c, vec3f(0.2126, 0.7152, 0.0722));"]

def floatFromColor : Helper where
  name := "float_from_color"
  parameters := [("c", "vec4f")]
  result := "vec4f"
  body := ["return vec4f(luminance(c.rgb));"]

def floatFromVector : Helper where
  name := "float_from_vector"
  parameters := [("v", "vec4f")]
  result := "vec4f"
  body := ["return vec4f((v.x + v.y + v.z) / 3.0);"]

def colorFromFloat : Helper where
  name := "color_from_float"
  parameters := [("v", "vec4f")]
  result := "vec4f"
  body := ["return vec4f(v.xxx, 1.0);"]

/-- The conversions, in the order in which they are declared. -/
def conversions : List Helper := [luminance, floatFromColor, floatFromVector, colorFromFloat]

/-! ## Closures -/

/-- The closure that does nothing. -/
def closureNone : Helper where
  name := "closure_none"
  parameters := []
  result := "Closure"
  body := ["var c: Closure;", "c.roughness = 0.5;", "c.ior = 1.5;", "return c;"]

def closureDiffuse : Helper where
  name := "closure_diffuse"
  parameters := [("color", "vec4f")]
  result := "Closure"
  body :=
    ["var c = closure_none();", "c.diffuse = max(color.rgb, vec3f(0.0));", "c.roughness = 1.0;",
     "return c;"]

/-- Data is emitted as a color. -/
def closureFromData : Helper where
  name := "closure_from_data"
  parameters := [("v", "vec4f")]
  result := "Closure"
  body := ["var c = closure_none();", "c.emission = v.rgb;", "return c;"]

/-- The functions that make closures, in the order in which they are declared. -/
def closures : List Helper := [closureNone, closureDiffuse, closureFromData]

/-! ## The text -/

/-- What stands before the structs. -/
def constants : String := "// Shared constants, shading types and helpers.

const PI: f32 = 3.141592653589793;
const TWO_PI: f32 = 6.283185307179586;
const INV_PI: f32 = 0.3183098861837907;
const INV_FOUR_PI: f32 = 0.07957747154594767;
const INFINITY: f32 = 3.4e38;
const EPSILON: f32 = 1e-4;

// Ray categories, shared with per-instance visibility masks.
const RAY_CAMERA: u32 = 1u;
const RAY_REFLECTION: u32 = 2u;
const RAY_TRANSMISSION: u32 = 4u;
const RAY_SHADOW: u32 = 8u;
const RAY_VOLUME: u32 = 16u;
const RAY_DIFFUSE: u32 = 32u;
const RAY_GLOSSY: u32 = 64u;
const RAY_SINGULAR: u32 = 128u;

// Closure produced by material evaluation.
"

/-- What stands behind the functions that make closures. -/
def remainder : String := "fn closure_glossy_weight(c: Closure) -> f32 \x7b
    return luminance(c.specular) + luminance(c.transmission);
\x7d

fn closure_scale(c: Closure, s: f32) -> Closure \x7b
    var r = c;
    r.diffuse *= s;
    r.specular *= s;
    r.transmission *= s;
    r.transparent *= s;
    r.emission *= s;
    return r;
\x7d

// Roughness and IOR follow whichever operand carries the glossy energy.
fn closure_add(a: Closure, b: Closure) -> Closure \x7b
    var r: Closure;
    r.diffuse = a.diffuse + b.diffuse;
    r.specular = a.specular + b.specular;
    r.transmission = a.transmission + b.transmission;
    r.transparent = a.transparent + b.transparent;
    r.emission = a.emission + b.emission;
    let wa = closure_glossy_weight(a);
    let wb = closure_glossy_weight(b);
    if wa + wb > 0.0 \x7b
        let t = wb / (wa + wb);
        r.roughness = mix(a.roughness, b.roughness, t);
        r.ior = mix(a.ior, b.ior, t);
    \x7d else \x7b
        r.roughness = mix(a.roughness, b.roughness, 0.5);
        r.ior = mix(a.ior, b.ior, 0.5);
    \x7d
    return r;
\x7d

fn closure_mix(a: Closure, b: Closure, t: f32) -> Closure \x7b
    let f = clamp(t, 0.0, 1.0);
    return closure_add(closure_scale(a, 1.0 - f), closure_scale(b, f));
\x7d

// Random numbers.

fn pcg_hash(v: u32) -> u32 \x7b
    let state = v * 747796405u + 2891336453u;
    let word = ((state >> ((state >> 28u) + 4u)) ^ state) * 277803737u;
    return (word >> 22u) ^ word;
\x7d

fn rng_seed(pixel: u32, frame: u32) -> u32 \x7b
    return pcg_hash(pixel ^ pcg_hash(frame + 0x9e3779b9u));
\x7d

fn rng_next(state: ptr<function, u32>) -> f32 \x7b
    *state = pcg_hash(*state);
    return f32(*state >> 8u) * (1.0 / 16777216.0);
\x7d

fn rng_next2(state: ptr<function, u32>) -> vec2f \x7b
    let a = rng_next(state);
    let b = rng_next(state);
    return vec2f(a, b);
\x7d

// Color spaces.

fn srgb_to_linear(c: vec3f) -> vec3f \x7b
    let lo = c / 12.92;
    let hi = pow((c + 0.055) / 1.055, vec3f(2.4));
    return select(hi, lo, c <= vec3f(0.04045));
\x7d

fn rgb_to_hsv(c: vec3f) -> vec3f \x7b
    let cmax = max(c.r, max(c.g, c.b));
    let cmin = min(c.r, min(c.g, c.b));
    let delta = cmax - cmin;
    var h = 0.0;
    let s = select(0.0, delta / cmax, cmax > 0.0);
    if delta > 0.0 \x7b
        if cmax == c.r \x7b
            h = (c.g - c.b) / delta;
        \x7d else if cmax == c.g \x7b
            h = 2.0 + (c.b - c.r) / delta;
        \x7d else \x7b
            h = 4.0 + (c.r - c.g) / delta;
        \x7d
        h = fract(h / 6.0);
    \x7d
    return vec3f(h, s, cmax);
\x7d

fn hsv_to_rgb(hsv: vec3f) -> vec3f \x7b
    let h = fract(hsv.x) * 6.0;
    let k = vec3f(h, h + 4.0, h + 2.0);
    let p = clamp(abs((k % 6.0) - 3.0) - 1.0, vec3f(0.0), vec3f(1.0));
    return hsv.z * mix(vec3f(1.0), p, hsv.y);
\x7d

fn rgb_to_hsl(c: vec3f) -> vec3f \x7b
    let cmax = max(c.r, max(c.g, c.b));
    let cmin = min(c.r, min(c.g, c.b));
    let l = 0.5 * (cmax + cmin);
    let hsv = rgb_to_hsv(c);
    let d = cmax - cmin;
    let s = select(0.0, d / (1.0 - abs(2.0 * l - 1.0)), d > 0.0 && l > 0.0 && l < 1.0);
    return vec3f(hsv.x, s, l);
\x7d

fn hsl_to_rgb(hsl: vec3f) -> vec3f \x7b
    let c = (1.0 - abs(2.0 * hsl.z - 1.0)) * hsl.y;
    let h = fract(hsl.x) * 6.0;
    let k = vec3f(h, h + 4.0, h + 2.0);
    let p = clamp(abs((k % 6.0) - 3.0) - 1.0, vec3f(0.0), vec3f(1.0));
    return hsl.z - 0.5 * c + c * p;
\x7d

// Geometry.

fn orthonormal_basis(n: vec3f) -> mat3x3f \x7b
    let s = select(-1.0, 1.0, n.z >= 0.0);
    let a = -1.0 / (s + n.z);
    let b = n.x * n.y * a;
    let t = vec3f(1.0 + s * n.x * n.x * a, s * b, -s * n.x);
    let bt = vec3f(b, s + n.y * n.y * a, -n.y);
    return mat3x3f(t, bt, n);
\x7d

fn safe_normalize(v: vec3f, fallback: vec3f) -> vec3f \x7b
    let len2 = dot(v, v);
    if len2 > 1e-20 \x7b
        return v * inverseSqrt(len2);
    \x7d
    return fallback;
\x7d

// Equal-area mapping between the unit square and the sphere.
fn square_to_sphere(uv: vec2f) -> vec3f \x7b
    let z = 1.0 - 2.0 * uv.y;
    let r = sqrt(max(0.0, 1.0 - z * z));
    let phi = TWO_PI * uv.x;
    return vec3f(r * cos(phi), r * sin(phi), z);
\x7d

fn sphere_to_square(d: vec3f) -> vec2f \x7b
    var phi = atan2(d.y, d.x);
    if phi < 0.0 \x7b
        phi += TWO_PI;
    \x7d
    return vec2f(phi / TWO_PI, (1.0 - clamp(d.z, -1.0, 1.0)) * 0.5);
\x7d
"

/-- The text. -/
def common : String :=
  constants ++ String.join (structs.map Struct.text) ++
    "// Data conversions between socket kinds.\n\n" ++ String.join (conversions.map Helper.text) ++
    "// Closures.\n\n" ++ String.join (closures.map Helper.text) ++ remainder

end Candela.Shader.Static
