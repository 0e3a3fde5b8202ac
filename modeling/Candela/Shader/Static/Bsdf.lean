/-!
# Closures and scattering

How closures are sampled and evaluated.
-/

namespace Candela.Shader.Static

/-- The text. -/
def bsdf : String := "// Closure scattering: lobe selection, evaluation and sampling.
//
// Diffuse and rough specular lobes are evaluable and take part in light
// sampling. Smooth specular, transmission and transparency are singular.

const SINGULAR_ROUGHNESS: f32 = 0.02;
const MIN_ALPHA: f32 = 1e-3;

struct BsdfEval \x7b
    // f * cos(theta_i)
    value: vec3f,
    pdf: f32,
\x7d

struct BsdfSample \x7b
    direction: vec3f,
    // f * cos / pdf, or the lobe weight for singular lobes
    weight: vec3f,
    // zero for singular lobes
    pdf: f32,
    flags: u32,
    valid: bool,
\x7d

// Selection probabilities of diffuse, specular, transmission and transparent.
fn lobe_probabilities(c: Closure) -> vec4f \x7b
    let w = vec4f(luminance(c.diffuse), luminance(c.specular), luminance(c.transmission), luminance(c.transparent));
    let total = w.x + w.y + w.z + w.w;
    if total <= 0.0 \x7b
        return vec4f(0.0);
    \x7d
    return w / total;
\x7d

fn specular_is_singular(c: Closure) -> bool \x7b
    return c.roughness < SINGULAR_ROUGHNESS;
\x7d

// Whether light sampling can contribute through this closure.
fn closure_is_evaluable(c: Closure) -> bool \x7b
    let p = lobe_probabilities(c);
    return p.x > 0.0 || (p.y > 0.0 && !specular_is_singular(c));
\x7d

fn ggx_alpha(roughness: f32) -> f32 \x7b
    return max(roughness * roughness, MIN_ALPHA);
\x7d

fn ggx_d(n_dot_h: f32, alpha: f32) -> f32 \x7b
    let a2 = alpha * alpha;
    let d = n_dot_h * n_dot_h * (a2 - 1.0) + 1.0;
    return a2 / (PI * d * d);
\x7d

fn smith_g1(n_dot_v: f32, alpha: f32) -> f32 \x7b
    let a2 = alpha * alpha;
    return 2.0 * n_dot_v / (n_dot_v + sqrt(a2 + (1.0 - a2) * n_dot_v * n_dot_v));
\x7d

fn fresnel_schlick(f0: vec3f, cos_theta: f32) -> vec3f \x7b
    let m = clamp(1.0 - cos_theta, 0.0, 1.0);
    let m2 = m * m;
    return f0 + (1.0 - f0) * (m2 * m2 * m);
\x7d

// Half vector in the local frame of the normal.
fn ggx_sample_half(u: vec2f, alpha: f32) -> vec3f \x7b
    let a2 = alpha * alpha;
    let phi = TWO_PI * u.x;
    let cos_theta = sqrt((1.0 - u.y) / (1.0 + (a2 - 1.0) * u.y));
    let sin_theta = sqrt(max(0.0, 1.0 - cos_theta * cos_theta));
    return vec3f(sin_theta * cos(phi), sin_theta * sin(phi), cos_theta);
\x7d

fn cosine_hemisphere(u: vec2f) -> vec3f \x7b
    let r = sqrt(u.x);
    let phi = TWO_PI * u.y;
    return vec3f(r * cos(phi), r * sin(phi), sqrt(max(0.0, 1.0 - u.x)));
\x7d

// Mixture of the evaluable lobes. `n` faces `wo`.
fn bsdf_eval(c: Closure, n: vec3f, wo: vec3f, wi: vec3f) -> BsdfEval \x7b
    var result: BsdfEval;
    let cos_o = dot(n, wo);
    let cos_i = dot(n, wi);
    if cos_i <= 0.0 || cos_o <= 0.0 \x7b
        return result;
    \x7d
    let p = lobe_probabilities(c);
    result.value = c.diffuse * INV_PI * cos_i;
    result.pdf = p.x * cos_i * INV_PI;

    if p.y > 0.0 && !specular_is_singular(c) \x7b
        let alpha = ggx_alpha(c.roughness);
        let h = normalize(wo + wi);
        let n_dot_h = max(dot(n, h), 0.0);
        let v_dot_h = max(dot(wo, h), 1e-6);
        let d = ggx_d(n_dot_h, alpha);
        let g = smith_g1(cos_o, alpha) * smith_g1(cos_i, alpha);
        let f = fresnel_schlick(c.specular, v_dot_h);
        result.value += f * (d * g / (4.0 * cos_o));
        result.pdf += p.y * d * n_dot_h / (4.0 * v_dot_h);
    \x7d
    return result;
\x7d

fn sample_from_eval(c: Closure, n: vec3f, wo: vec3f, wi: vec3f, flags: u32) -> BsdfSample \x7b
    var s: BsdfSample;
    let e = bsdf_eval(c, n, wo, wi);
    if e.pdf <= 0.0 \x7b
        return s;
    \x7d
    s.direction = wi;
    s.weight = e.value / e.pdf;
    s.pdf = e.pdf;
    s.flags = flags;
    s.valid = true;
    return s;
\x7d

// `u.z` selects the lobe, `u.xy` samples it.
fn bsdf_sample(c: Closure, n: vec3f, wo: vec3f, backfacing: bool, u: vec3f) -> BsdfSample \x7b
    var s: BsdfSample;
    let p = lobe_probabilities(c);
    let basis = orthonormal_basis(n);

    if u.z < p.x \x7b
        let wi = basis * cosine_hemisphere(u.xy);
        return sample_from_eval(c, n, wo, wi, RAY_REFLECTION | RAY_DIFFUSE);
    \x7d

    if u.z < p.x + p.y \x7b
        if specular_is_singular(c) \x7b
            s.direction = reflect(-wo, n);
            s.weight = fresnel_schlick(c.specular, max(dot(n, wo), 0.0)) / p.y;
            s.flags = RAY_REFLECTION | RAY_GLOSSY | RAY_SINGULAR;
            s.valid = dot(s.direction, n) > 0.0;
            return s;
        \x7d
        let h = basis * ggx_sample_half(u.xy, ggx_alpha(c.roughness));
        let wi = reflect(-wo, h);
        return sample_from_eval(c, n, wo, wi, RAY_REFLECTION | RAY_GLOSSY);
    \x7d

    if u.z < p.x + p.y + p.z \x7b
        var h = n;
        if !specular_is_singular(c) \x7b
            h = basis * ggx_sample_half(u.xy, ggx_alpha(c.roughness));
        \x7d
        let eta = select(c.ior, 1.0 / c.ior, backfacing);
        let cos_o = max(dot(wo, h), 1e-6);
        let fresnel = fresnel_dielectric_cos(cos_o, eta);
        let v = (u.z - p.x - p.y) / p.z;
        let refracted = refract(-wo, h, 1.0 / eta);
        if v < fresnel || dot(refracted, refracted) == 0.0 \x7b
            s.direction = reflect(-wo, h);
            s.flags = RAY_REFLECTION | RAY_GLOSSY | RAY_SINGULAR;
        \x7d else \x7b
            s.direction = normalize(refracted);
            s.flags = RAY_TRANSMISSION | RAY_GLOSSY | RAY_SINGULAR;
        \x7d
        s.weight = c.transmission / p.z;
        s.valid = true;
        return s;
    \x7d

    if p.w > 0.0 \x7b
        s.direction = -wo;
        s.weight = c.transparent / p.w;
        s.flags = RAY_TRANSMISSION | RAY_SINGULAR;
        s.valid = true;
    \x7d
    return s;
\x7d

// Balance heuristic squared (power heuristic, beta = 2).
fn power_heuristic(a: f32, b: f32) -> f32 \x7b
    let a2 = a * a;
    let b2 = b * b;
    if a2 + b2 <= 0.0 \x7b
        return 0.0;
    \x7d
    return a2 / (a2 + b2);
\x7d
"

end Candela.Shader.Static
