/-!
# Environment importance

The entry points that tabulate the importance of the environment, and its sampling.
-/

namespace Candela.Shader.Static

/-- The text. -/
def envmap : String := "// World light importance table.
//
// The table is a mip pyramid of luminance over the equal-area square,
// finest level first, followed by the per-cell solid-angle pdf:
// [level 0 (R x R) | level 1 | ... | 1 x 1 | pdf (R x R)], R = 2^exponent.

struct EnvBuildParams \x7b
    resolution: u32,
    src_offset: u32,
    dst_offset: u32,
    shader: u32,
    pdf_offset: u32,
    total_offset: u32,
    samples: u32,
    _pad0: u32,
\x7d

@group(2) @binding(10) var<storage, read_write> env_build: array<f32>;
@group(2) @binding(11) var<uniform> env_params: EnvBuildParams;

struct EnvSample \x7b
    direction: vec3f,
    pdf: f32,
\x7d

fn world_radiance(shader: u32, dir: vec3f, flags: u32, depth: u32) -> vec3f \x7b
    var sc: ShadingContext;
    sc.position = dir;
    sc.normal = -dir;
    sc.true_normal = -dir;
    sc.tangent = orthonormal_basis(-dir)[0];
    sc.wo = -dir;
    sc.generated = dir;
    sc.object = dir;
    sc.distance = INFINITY;
    sc.ray_flags = flags;
    sc.ray_depth = depth;
    sc.material = closure_none();
    shade_light(shader, &sc);
    return max(sc.material.emission, vec3f(0.0));
\x7d

fn env_level_offset(exponent: u32, level: u32) -> u32 \x7b
    return ((1u << (2u * (exponent + 1u))) - (1u << (2u * (exponent - level + 1u)))) / 3u;
\x7d

fn env_value(exponent: u32, level: u32, x: u32, y: u32) -> f32 \x7b
    let resolution = 1u << (exponent - level);
    return env_table[env_level_offset(exponent, level) + y * resolution + x];
\x7d

// Hierarchical sampling: each level splits the quad by columns, then rows.
fn env_sample(u_in: vec2f) -> EnvSample \x7b
    var result: EnvSample;
    let k = scene.env_exponent;
    var u = u_in;
    var x = 0u;
    var y = 0u;
    for (var level = k; level > 0u; level--) \x7b
        let fine = level - 1u;
        let x0 = 2u * x;
        let y0 = 2u * y;
        let a = env_value(k, fine, x0, y0);
        let b = env_value(k, fine, x0 + 1u, y0);
        let c = env_value(k, fine, x0, y0 + 1u);
        let d = env_value(k, fine, x0 + 1u, y0 + 1u);

        let left = a + c;
        let sum = a + b + c + d;
        let p_left = select(0.5, left / sum, sum > 0.0);
        var top: f32;
        var column_sum: f32;
        if u.x < p_left \x7b
            u.x = u.x / p_left;
            x = x0;
            top = a;
            column_sum = left;
        \x7d else \x7b
            u.x = (u.x - p_left) / (1.0 - p_left);
            x = x0 + 1u;
            top = b;
            column_sum = b + d;
        \x7d
        let p_top = select(0.5, top / column_sum, column_sum > 0.0);
        if u.y < p_top \x7b
            u.y = u.y / p_top;
            y = y0;
        \x7d else \x7b
            u.y = (u.y - p_top) / (1.0 - p_top);
            y = y0 + 1u;
        \x7d
        u = clamp(u, vec2f(0.0), vec2f(0.99999994));
    \x7d

    let resolution = f32(1u << k);
    let uv = (vec2f(f32(x), f32(y)) + u) / resolution;
    result.direction = square_to_sphere(uv);
    result.pdf = env_table[scene.env_pdf_offset + y * (1u << k) + x];
    return result;
\x7d

fn env_pdf(dir: vec3f) -> f32 \x7b
    let resolution = 1u << scene.env_exponent;
    let uv = sphere_to_square(dir);
    let cell = min(vec2u(uv * f32(resolution)), vec2u(resolution - 1u));
    return env_table[scene.env_pdf_offset + cell.y * resolution + cell.x];
\x7d

// Table construction

@compute @workgroup_size(64)
fn env_build_base(@builtin(global_invocation_id) gid: vec3u, @builtin(num_workgroups) groups: vec3u) \x7b
    let index = gid.y * groups.x * 64u + gid.x;
    let resolution = env_params.resolution;
    if index >= resolution * resolution \x7b
        return;
    \x7d
    let x = index % resolution;
    let y = index / resolution;
    let samples = max(env_params.samples, 1u);
    var rng = rng_seed(index, 0x5eedu);
    var total = 0.0;
    for (var i = 0u; i < samples; i++) \x7b
        let jitter = select(rng_next2(&rng), vec2f(0.5), samples == 1u);
        let uv = (vec2f(f32(x), f32(y)) + jitter) / f32(resolution);
        total += luminance(world_radiance(env_params.shader, square_to_sphere(uv), RAY_SHADOW, 0u));
    \x7d
    env_build[env_params.dst_offset + index] = total / f32(samples);
\x7d

@compute @workgroup_size(64)
fn env_build_reduce(@builtin(global_invocation_id) gid: vec3u, @builtin(num_workgroups) groups: vec3u) \x7b
    let index = gid.y * groups.x * 64u + gid.x;
    let resolution = env_params.resolution;
    if index >= resolution * resolution \x7b
        return;
    \x7d
    let x = index % resolution;
    let y = index / resolution;
    let src = resolution * 2u;
    let base = env_params.src_offset + (2u * y) * src + 2u * x;
    env_build[env_params.dst_offset + index] =
        env_build[base] + env_build[base + 1u] + env_build[base + src] + env_build[base + src + 1u];
\x7d

@compute @workgroup_size(64)
fn env_build_normalize(@builtin(global_invocation_id) gid: vec3u, @builtin(num_workgroups) groups: vec3u) \x7b
    let index = gid.y * groups.x * 64u + gid.x;
    let resolution = env_params.resolution;
    let cells = resolution * resolution;
    if index >= cells \x7b
        return;
    \x7d
    let total = env_build[env_params.total_offset];
    var pdf = INV_FOUR_PI;
    if total > 0.0 \x7b
        pdf = env_build[env_params.src_offset + index] / total * f32(cells) * INV_FOUR_PI;
    \x7d
    env_build[env_params.pdf_offset + index] = pdf;
\x7d
"

end Candela.Shader.Static
