/-!
# The passes of a frame

The entry points of the passes that trace and shade all rays of one depth at a time.
-/

namespace Candela.Shader.Static

/-- The text. -/
def wavefront : String := "// Wavefront kernels: camera rays, traversal, shading, shadow rays and
// display. Every kernel runs 64 threads per group over a 2D grid sized by
// `dispatch_args` (x at most 32768 groups).

const WORKGROUP_SIZE: u32 = 64u;
const MAX_GROUPS_X: u32 = 32768u;
const STACK_SIZE: u32 = 64u; // builders cap BVH depth below this
const NO_HIT: u32 = 0xffffffffu;
const NO_LIGHT: u32 = 0xffffffffu;

const LIGHT_WORLD: u32 = 0u;
const LIGHT_AREA: u32 = 1u;
const LIGHT_POINT: u32 = 2u;
const LIGHT_SUN: u32 = 3u;
const LIGHT_SPOT: u32 = 4u;
const LIGHT_SHAPE: u32 = 5u;

const LIGHT_CAST_SHADOWS: u32 = 1u;
const LIGHT_USE_MIS: u32 = 2u;

const SAMPLING_BSDF: u32 = 0u;
const SAMPLING_NEE: u32 = 1u;
const SAMPLING_MIS: u32 = 2u;

const TONEMAP_LINEAR: u32 = 0u;
const TONEMAP_HABLE: u32 = 1u;
const TONEMAP_ACES: u32 = 2u;

const CHANNEL_IMAGE: u32 = 0u;
const CHANNEL_ALBEDO: u32 = 1u;
const CHANNEL_NORMAL: u32 = 2u;

const VISIBILITY_MASK: u32 = RAY_CAMERA | RAY_TRANSMISSION | RAY_SHADOW | RAY_VOLUME | RAY_DIFFUSE | RAY_GLOSSY;

struct BvhNode \x7b
    aabb_min: vec3f,
    left_or_first: u32,
    aabb_max: vec3f,
    count: u32,
\x7d

struct Vertex \x7b
    position: vec3f,
    u: f32,
    normal: vec3f,
    v: f32,
\x7d

struct Face \x7b
    indices: vec3u,
    material: u32,
\x7d

struct Instance \x7b
    object_to_world: mat4x4f,
    world_to_object: mat4x4f,
    normal_matrix: mat3x3f,
    bounds_min: vec3f,
    blas_root: u32,
    bounds_inv_extent: vec3f,
    face_offset: u32,
    visibility: u32,
    light: u32,
    light_face_offset: u32,
    light_face_count: u32,
\x7d

struct Light \x7b
    kind: u32,
    shader: u32,
    flags: u32,
    instance: u32,
    position: vec3f,
    radius: f32,
    direction: vec3f,
    spot_size: f32,
    color: vec3f,
    spot_blend: f32,
    axis_u: vec3f,
    cos_angle: f32,
    axis_v: vec3f,
    area: f32,
    face_offset: u32,
    face_count: u32,
    circular: u32,
    _pad0: u32,
\x7d

struct SceneUniforms \x7b
    light_count: u32,
    area_count: u32,
    point_count: u32,
    sun_count: u32,
    spot_count: u32,
    shape_count: u32,
    instance_count: u32,
    env_exponent: u32,
    env_pdf_offset: u32,
    _pad0: u32,
    _pad1: u32,
    _pad2: u32,
\x7d

struct FrameUniforms \x7b
    camera_to_world: mat4x4f,
    width: u32,
    height: u32,
    frame_index: u32,
    max_depth: u32,
    focal: f32,
    shift_x: f32,
    shift_y: f32,
    exposure: f32,
    near: f32,
    far: f32,
    tonemapping: u32,
    sampling_mode: u32,
    rr_depth: u32,
    output_channel: u32,
    accumulate: u32,
    samples: u32,
\x7d

struct PassUniforms \x7b
    depth: u32,
    current_base: u32,
    next_base: u32,
    counter_index: u32,
    args_slot: u32,
    is_last: u32,
    _pad0: u32,
    _pad1: u32,
\x7d

struct Ray \x7b
    origin: vec3f,
    pixel: u32,
    direction: vec3f,
    flags: u32,
    throughput: vec3f,
    // BSDF pdf of the bounce that spawned this ray, zero when singular
    pdf: f32,
    rng: u32,
\x7d

struct ShadowRay \x7b
    origin: vec3f,
    pixel: u32,
    direction: vec3f,
    t_max: f32,
    contribution: vec3f,
    visible: u32,
\x7d

struct Hit \x7b
    barycentric: vec2f,
    t: f32,
    instance: u32,
    face: u32,
    _pad0: u32,
\x7d

@group(0) @binding(0) var<storage, read> bvh_nodes: array<BvhNode>;
@group(0) @binding(1) var<storage, read> bvh_primitives: array<u32>;
@group(0) @binding(2) var<storage, read> vertices: array<Vertex>;
@group(0) @binding(3) var<storage, read> faces: array<Face>;
@group(0) @binding(4) var<storage, read> instances: array<Instance>;
@group(0) @binding(5) var<storage, read> lights: array<Light>;
@group(0) @binding(6) var<storage, read> light_faces: array<f32>;
@group(0) @binding(7) var<storage, read> env_table: array<f32>;
@group(0) @binding(8) var<uniform> scene: SceneUniforms;

@group(2) @binding(0) var<storage, read_write> rays: array<Ray>;
@group(2) @binding(1) var<storage, read_write> shadow_rays: array<ShadowRay>;
@group(2) @binding(2) var<storage, read_write> hits: array<Hit>;
@group(2) @binding(3) var<storage, read_write> counters: array<atomic<u32>>;
@group(2) @binding(4) var<storage, read_write> accumulation: array<vec4f>;
@group(2) @binding(5) var output_image: texture_storage_2d<rgba8unorm, write>;
@group(2) @binding(6) var<uniform> frame: FrameUniforms;

@group(3) @binding(0) var<uniform> pass_info: PassUniforms;
@group(3) @binding(1) var<storage, read_write> dispatch_args: array<u32>;

// Counter layout: [rays 0..=D | shadow rays 0..D | terminated 0..D]

fn ray_counter(depth: u32) -> u32 \x7b
    return depth;
\x7d

fn shadow_counter(depth: u32) -> u32 \x7b
    return frame.max_depth + 1u + depth;
\x7d

fn terminated_counter(depth: u32) -> u32 \x7b
    return 2u * frame.max_depth + 1u + depth;
\x7d

fn thread_index(gid: vec3u, groups: vec3u) -> u32 \x7b
    return gid.y * groups.x * WORKGROUP_SIZE + gid.x;
\x7d

// Indirect arguments

@compute @workgroup_size(1)
fn compute_dispatch_args() \x7b
    let count = atomicLoad(&counters[pass_info.counter_index]);
    let groups = (count + WORKGROUP_SIZE - 1u) / WORKGROUP_SIZE;
    let base = pass_info.args_slot * 3u;
    dispatch_args[base] = min(groups, MAX_GROUPS_X);
    dispatch_args[base + 1u] = (groups + MAX_GROUPS_X - 1u) / MAX_GROUPS_X;
    dispatch_args[base + 2u] = 1u;
\x7d

// Traversal

fn transform_point(m: mat4x4f, p: vec3f) -> vec3f \x7b
    return (m * vec4f(p, 1.0)).xyz;
\x7d

fn transform_vector(m: mat4x4f, v: vec3f) -> vec3f \x7b
    return (m * vec4f(v, 0.0)).xyz;
\x7d

fn safe_inverse(d: vec3f) -> vec3f \x7b
    let tiny = abs(d) < vec3f(1e-12);
    let signed = select(vec3f(-1e30), vec3f(1e30), d >= vec3f(0.0));
    return select(1.0 / d, signed, tiny);
\x7d

fn node_is_empty(node: BvhNode) -> bool \x7b
    return node.count == 0u && node.left_or_first == 0u;
\x7d

fn intersect_aabb(node: BvhNode, origin: vec3f, inv_dir: vec3f, t_max: f32) -> bool \x7b
    let t0 = (node.aabb_min - origin) * inv_dir;
    let t1 = (node.aabb_max - origin) * inv_dir;
    let lo = min(t0, t1);
    let hi = max(t0, t1);
    let near = max(max(lo.x, lo.y), max(lo.z, 0.0));
    let far = min(min(hi.x, hi.y), min(hi.z, t_max));
    return near <= far;
\x7d

// Returns (t, u, v); t is negative on a miss.
fn intersect_triangle(origin: vec3f, direction: vec3f, v0: vec3f, v1: vec3f, v2: vec3f) -> vec3f \x7b
    let e1 = v1 - v0;
    let e2 = v2 - v0;
    let p = cross(direction, e2);
    let det = dot(e1, p);
    if abs(det) < 1e-12 \x7b
        return vec3f(-1.0);
    \x7d
    let inv_det = 1.0 / det;
    let s = origin - v0;
    let u = dot(s, p) * inv_det;
    if u < 0.0 || u > 1.0 \x7b
        return vec3f(-1.0);
    \x7d
    let q = cross(s, e1);
    let v = dot(direction, q) * inv_det;
    if v < 0.0 || u + v > 1.0 \x7b
        return vec3f(-1.0);
    \x7d
    let t = dot(e2, q) * inv_det;
    if t <= 1e-6 \x7b
        return vec3f(-1.0);
    \x7d
    return vec3f(t, u, v);
\x7d

// Closest (or any, for shadow queries) hit against instances visible to `mask`.
fn intersect_scene(origin: vec3f, direction: vec3f, t_max: f32, mask: u32, any_hit: bool) -> Hit \x7b
    var best: Hit;
    best.t = t_max;
    best.instance = NO_HIT;

    let inv_dir = safe_inverse(direction);
    var stack: array<u32, STACK_SIZE>;
    var sp = 1u;
    stack[0] = 0u;

    while sp > 0u \x7b
        sp -= 1u;
        let node = bvh_nodes[stack[sp]];
        if node_is_empty(node) || !intersect_aabb(node, origin, inv_dir, best.t) \x7b
            continue;
        \x7d
        if node.count == 0u \x7b
            if sp + 2u <= STACK_SIZE \x7b
                stack[sp] = node.left_or_first;
                stack[sp + 1u] = node.left_or_first + 1u;
                sp += 2u;
            \x7d
            continue;
        \x7d
        for (var slot = node.left_or_first; slot < node.left_or_first + node.count; slot++) \x7b
            let instance_index = bvh_primitives[slot];
            let instance = instances[instance_index];
            if (instance.visibility & mask & VISIBILITY_MASK) == 0u \x7b
                continue;
            \x7d
            let local_origin = transform_point(instance.world_to_object, origin);
            let local_dir = transform_vector(instance.world_to_object, direction);
            let local_inv = safe_inverse(local_dir);

            var blas_stack: array<u32, STACK_SIZE>;
            var bsp = 1u;
            blas_stack[0] = instance.blas_root;
            while bsp > 0u \x7b
                bsp -= 1u;
                let inner = bvh_nodes[blas_stack[bsp]];
                if node_is_empty(inner) || !intersect_aabb(inner, local_origin, local_inv, best.t) \x7b
                    continue;
                \x7d
                if inner.count == 0u \x7b
                    if bsp + 2u <= STACK_SIZE \x7b
                        blas_stack[bsp] = inner.left_or_first;
                        blas_stack[bsp + 1u] = inner.left_or_first + 1u;
                        bsp += 2u;
                    \x7d
                    continue;
                \x7d
                for (var leaf = inner.left_or_first; leaf < inner.left_or_first + inner.count; leaf++) \x7b
                    let face_index = instance.face_offset + bvh_primitives[leaf];
                    let face = faces[face_index];
                    let tuv = intersect_triangle(
                        local_origin,
                        local_dir,
                        vertices[face.indices.x].position,
                        vertices[face.indices.y].position,
                        vertices[face.indices.z].position
                    );
                    if tuv.x > 0.0 && tuv.x < best.t \x7b
                        best.t = tuv.x;
                        best.instance = instance_index;
                        best.face = face_index;
                        best.barycentric = tuv.yz;
                        if any_hit \x7b
                            return best;
                        \x7d
                    \x7d
                \x7d
            \x7d
        \x7d
    \x7d
    return best;
\x7d

// Offsets `p` off the surface with geometric normal `ng`, on the side of `dir`.
fn offset_ray(p: vec3f, ng: vec3f, dir: vec3f) -> vec3f \x7b
    let scale = max(max(abs(p.x), abs(p.y)), max(abs(p.z), 1.0));
    let side = select(-1.0, 1.0, dot(ng, dir) >= 0.0);
    return p + ng * (side * EPSILON * scale);
\x7d

// Shading context setup

fn surface_context(direction: vec3f, hit: Hit, flags: u32, depth: u32) -> ShadingContext \x7b
    let instance = instances[hit.instance];
    let face = faces[hit.face];
    let a = vertices[face.indices.x];
    let b = vertices[face.indices.y];
    let c = vertices[face.indices.z];
    let w = vec3f(1.0 - hit.barycentric.x - hit.barycentric.y, hit.barycentric.x, hit.barycentric.y);

    let p_obj = a.position * w.x + b.position * w.y + c.position * w.z;
    let n_obj = a.normal * w.x + b.normal * w.y + c.normal * w.z;
    let uv = vec2f(a.u, a.v) * w.x + vec2f(b.u, b.v) * w.y + vec2f(c.u, c.v) * w.z;
    let ng_obj = cross(b.position - a.position, c.position - a.position);

    var ng = safe_normalize(instance.normal_matrix * ng_obj, -direction);
    var ns = safe_normalize(instance.normal_matrix * n_obj, ng);
    let backfacing = dot(ng, direction) > 0.0;
    if backfacing \x7b
        ng = -ng;
        ns = -ns;
    \x7d

    var sc: ShadingContext;
    sc.position = transform_point(instance.object_to_world, p_obj);
    sc.normal = ns;
    sc.true_normal = ng;
    sc.tangent = orthonormal_basis(ns)[0];
    sc.wo = -direction;
    sc.uv = vec3f(uv, 0.0);
    sc.generated = (p_obj - instance.bounds_min) * instance.bounds_inv_extent;
    sc.object = p_obj;
    sc.distance = hit.t;
    sc.ray_flags = flags;
    sc.ray_depth = depth;
    sc.backfacing = backfacing;
    sc.material = closure_none();
    return sc;
\x7d

fn shade_face(material: u32, sc: ptr<function, ShadingContext>) -> Closure \x7b
    shade_surface(material, sc);
    return (*sc).material;
\x7d

// Lights

struct LightSample \x7b
    direction: vec3f,
    distance: f32,
    radiance: vec3f,
    // solid-angle pdf including the light pick; 1 for delta lights
    pdf: f32,
    light: u32,
    valid: bool,
\x7d

fn light_shader_emission(light: Light, position: vec3f, dir: vec3f, depth: u32) -> vec3f \x7b
    var sc: ShadingContext;
    sc.position = position;
    sc.normal = -dir;
    sc.true_normal = -dir;
    sc.tangent = orthonormal_basis(-dir)[0];
    sc.wo = -dir;
    sc.generated = dir;
    sc.object = position;
    sc.distance = INFINITY;
    sc.ray_flags = RAY_SHADOW;
    sc.ray_depth = depth;
    sc.material = closure_none();
    shade_light(light.shader, &sc);
    return sc.material.emission;
\x7d

fn spot_attenuation(light: Light, to_point: vec3f) -> f32 \x7b
    let cos_angle = dot(to_point, light.direction);
    if cos_angle <= light.spot_size \x7b
        return 0.0;
    \x7d
    if light.spot_blend <= 0.0 \x7b
        return 1.0;
    \x7d
    return smoothstep(0.0, 1.0, (cos_angle - light.spot_size) / light.spot_blend);
\x7d

fn pick_shape_face(light: Light, u: f32) -> u32 \x7b
    var lo = 0u;
    var hi = light.face_count;
    while lo < hi \x7b
        let mid = (lo + hi) / 2u;
        if light_faces[light.face_offset + mid] <= u \x7b
            lo = mid + 1u;
        \x7d else \x7b
            hi = mid;
        \x7d
    \x7d
    return min(lo, light.face_count - 1u);
\x7d

fn sample_light(p: vec3f, depth: u32, rng: ptr<function, u32>) -> LightSample \x7b
    var ls: LightSample;
    let total = scene.light_count;
    if total == 0u \x7b
        return ls;
    \x7d
    let index = min(u32(rng_next(rng) * f32(total)), total - 1u);
    let light = lights[index];
    let u = rng_next2(rng);
    ls.light = index;

    switch light.kind \x7b
        case LIGHT_WORLD: \x7b
            let env = env_sample(u);
            if env.pdf <= 0.0 \x7b
                return ls;
            \x7d
            ls.direction = env.direction;
            ls.distance = INFINITY;
            ls.pdf = env.pdf;
            ls.radiance = world_radiance(light.shader, env.direction, RAY_SHADOW, depth);
        \x7d
        case LIGHT_AREA: \x7b
            var q: vec3f;
            var area = light.area;
            if light.circular != 0u \x7b
                let r = sqrt(u.x);
                let phi = TWO_PI * u.y;
                q = light.position + light.axis_u * (r * cos(phi)) + light.axis_v * (r * sin(phi));
                area *= 0.25 * PI;
            \x7d else \x7b
                q = light.position + light.axis_u * (2.0 * u.x - 1.0) + light.axis_v * (2.0 * u.y - 1.0);
            \x7d
            let to_light = q - p;
            let dist2 = dot(to_light, to_light);
            ls.distance = sqrt(dist2);
            ls.direction = to_light / ls.distance;
            let cos_light = dot(-ls.direction, light.direction);
            if cos_light <= 0.0 || area <= 0.0 \x7b
                return ls;
            \x7d
            ls.pdf = dist2 / (cos_light * area);
            ls.radiance = light.color / (PI * light.area);
        \x7d
        case LIGHT_POINT, LIGHT_SPOT: \x7b
            let to_light = light.position - p;
            let dist2 = max(dot(to_light, to_light), 1e-8);
            ls.distance = sqrt(dist2);
            ls.direction = to_light / ls.distance;
            ls.pdf = 1.0;
            ls.radiance = light.color / dist2;
            if light.kind == LIGHT_SPOT \x7b
                ls.radiance *= spot_attenuation(light, -ls.direction);
            \x7d
        \x7d
        case LIGHT_SUN: \x7b
            let axis = -light.direction;
            var dir = axis;
            if light.cos_angle < 1.0 \x7b
                let cos_theta = mix(1.0, light.cos_angle, u.x);
                let sin_theta = sqrt(max(0.0, 1.0 - cos_theta * cos_theta));
                let phi = TWO_PI * u.y;
                dir = orthonormal_basis(axis) * vec3f(sin_theta * cos(phi), sin_theta * sin(phi), cos_theta);
            \x7d
            ls.direction = dir;
            ls.distance = INFINITY;
            ls.pdf = 1.0;
            ls.radiance = light.color;
        \x7d
        case LIGHT_SHAPE: \x7b
            if light.face_count == 0u || light.area <= 0.0 \x7b
                return ls;
            \x7d
            let instance = instances[light.instance];
            let local = pick_shape_face(light, rng_next(rng));
            let face = faces[instance.face_offset + local];
            let a = transform_point(instance.object_to_world, vertices[face.indices.x].position);
            let b = transform_point(instance.object_to_world, vertices[face.indices.y].position);
            let c = transform_point(instance.object_to_world, vertices[face.indices.z].position);
            let su = sqrt(u.x);
            let q = a * (1.0 - su) + b * (su * (1.0 - u.y)) + c * (su * u.y);
            let ng = safe_normalize(cross(b - a, c - a), vec3f(0.0, 0.0, 1.0));
            let to_light = q - p;
            let dist2 = dot(to_light, to_light);
            ls.distance = sqrt(dist2);
            ls.direction = to_light / ls.distance;
            let cos_light = abs(dot(ls.direction, ng));
            if cos_light <= 1e-6 \x7b
                return ls;
            \x7d
            ls.pdf = dist2 / (cos_light * light.area);

            var sc: ShadingContext;
            sc.position = q;
            sc.normal = select(ng, -ng, dot(ng, ls.direction) > 0.0);
            sc.true_normal = sc.normal;
            sc.tangent = orthonormal_basis(sc.normal)[0];
            sc.wo = -ls.direction;
            sc.distance = ls.distance;
            sc.ray_flags = RAY_SHADOW;
            sc.ray_depth = depth;
            sc.material = closure_none();
            ls.radiance = shade_face(face.material, &sc).emission;
            ls.distance *= 1.0 - 1e-3;
        \x7d
        default: \x7b
            return ls;
        \x7d
    \x7d

    if light.kind != LIGHT_WORLD && light.kind != LIGHT_SHAPE \x7b
        ls.radiance *= light_shader_emission(light, p, ls.direction, depth);
    \x7d
    ls.pdf /= f32(total);
    ls.valid = ls.pdf > 0.0 && any(ls.radiance > vec3f(0.0));
    return ls;
\x7d

fn world_uses_mis() -> bool \x7b
    return frame.sampling_mode == SAMPLING_MIS && (lights[0].flags & LIGHT_USE_MIS) != 0u;
\x7d

fn accumulate(pixel: u32, radiance: vec3f) \x7b
    let safe = select(radiance, vec3f(0.0), radiance != radiance);
    accumulation[pixel] += vec4f(safe, 0.0);
\x7d

// Camera rays

@compute @workgroup_size(64)
fn generate_camera_rays(@builtin(global_invocation_id) gid: vec3u, @builtin(num_workgroups) groups: vec3u) \x7b
    let index = thread_index(gid, groups);
    if index >= frame.width * frame.height \x7b
        return;
    \x7d
    let x = index % frame.width;
    let y = index / frame.width;
    var rng = rng_seed(index, frame.frame_index);
    let jitter = rng_next2(&rng);

    let ndc = vec2f(
        (f32(x) + jitter.x) / f32(frame.width) * 2.0 - 1.0,
        1.0 - (f32(y) + jitter.y) / f32(frame.height) * 2.0
    );
    let aspect = f32(frame.height) / f32(frame.width);
    let local = normalize(vec3f(ndc.x + 2.0 * frame.shift_x, ndc.y * aspect + 2.0 * frame.shift_y, -frame.focal));

    var ray: Ray;
    ray.direction = normalize(transform_vector(frame.camera_to_world, local));
    ray.origin = transform_point(frame.camera_to_world, vec3f(0.0)) + ray.direction * (frame.near / max(-local.z, 1e-6));
    ray.pixel = index;
    ray.flags = RAY_CAMERA;
    ray.throughput = vec3f(1.0);
    ray.pdf = 0.0;
    ray.rng = rng;

    let slot = atomicAdd(&counters[ray_counter(0u)], 1u);
    rays[slot] = ray;
\x7d

// Nearest hits for the live rays of this depth

@compute @workgroup_size(64)
fn trace_nearest(@builtin(global_invocation_id) gid: vec3u, @builtin(num_workgroups) groups: vec3u) \x7b
    let index = thread_index(gid, groups);
    if index >= atomicLoad(&counters[ray_counter(pass_info.depth)]) \x7b
        return;
    \x7d
    let ray = rays[pass_info.current_base + index];
    var t_max = INFINITY;
    if (ray.flags & RAY_CAMERA) != 0u \x7b
        // camera rays start on the near plane; far is measured from the eye
        let eye = transform_point(frame.camera_to_world, vec3f(0.0));
        t_max = max(frame.far - distance(ray.origin, eye), 0.0);
    \x7d
    hits[index] = intersect_scene(ray.origin, ray.direction, t_max, ray.flags, false);
\x7d

fn terminate(depth: u32) \x7b
    atomicAdd(&counters[terminated_counter(depth)], 1u);
\x7d

// Shading: emission, light sampling, continuation

@compute @workgroup_size(64)
fn shade(@builtin(global_invocation_id) gid: vec3u, @builtin(num_workgroups) groups: vec3u) \x7b
    let index = thread_index(gid, groups);
    let depth = pass_info.depth;
    if index >= atomicLoad(&counters[ray_counter(depth)]) \x7b
        return;
    \x7d
    var ray = rays[pass_info.current_base + index];
    let hit = hits[index];
    var rng = ray.rng;

    if hit.instance == NO_HIT \x7b
        if frame.output_channel == CHANNEL_IMAGE \x7b
            var weight = 1.0;
            if depth > 0u && ray.pdf > 0.0 && frame.sampling_mode != SAMPLING_BSDF \x7b
                if world_uses_mis() \x7b
                    let light_pdf = env_pdf(ray.direction) / f32(scene.light_count);
                    weight = power_heuristic(ray.pdf, light_pdf);
                \x7d else \x7b
                    weight = 0.0;
                \x7d
            \x7d
            if weight > 0.0 \x7b
                let radiance = world_radiance(lights[0].shader, ray.direction, ray.flags, depth);
                accumulate(ray.pixel, ray.throughput * radiance * weight);
            \x7d
        \x7d
        terminate(depth);
        return;
    \x7d

    var sc = surface_context(ray.direction, hit, ray.flags, depth);
    let material = faces[hit.face].material;
    let closure = shade_face(material, &sc);

    if frame.output_channel != CHANNEL_IMAGE \x7b
        if frame.output_channel == CHANNEL_ALBEDO \x7b
            accumulate(ray.pixel, closure.diffuse + closure.specular + closure.transmission);
        \x7d else \x7b
            accumulate(ray.pixel, sc.normal * 0.5 + 0.5);
        \x7d
        terminate(depth);
        return;
    \x7d

    let instance = instances[hit.instance];
    let counted_by_nee = frame.sampling_mode != SAMPLING_BSDF && instance.light != NO_LIGHT;
    if depth == 0u || ray.pdf == 0.0 || !counted_by_nee \x7b
        accumulate(ray.pixel, ray.throughput * closure.emission);
    \x7d

    if pass_info.is_last != 0u \x7b
        terminate(depth);
        return;
    \x7d

    let probabilities = lobe_probabilities(closure);
    if probabilities.x + probabilities.y + probabilities.z + probabilities.w <= 0.0 \x7b
        terminate(depth);
        return;
    \x7d

    if frame.sampling_mode != SAMPLING_BSDF && closure_is_evaluable(closure) \x7b
        let ls = sample_light(sc.position, depth, &rng);
        if ls.valid && dot(ls.direction, sc.true_normal) > 0.0 \x7b
            let e = bsdf_eval(closure, sc.normal, sc.wo, ls.direction);
            var weight = 1.0;
            if ls.light == 0u && world_uses_mis() \x7b
                weight = power_heuristic(ls.pdf, e.pdf);
            \x7d
            let contribution = ray.throughput * e.value * ls.radiance * (weight / ls.pdf);
            if any(contribution > vec3f(0.0)) \x7b
                if (lights[ls.light].flags & LIGHT_CAST_SHADOWS) != 0u \x7b
                    var shadow: ShadowRay;
                    shadow.origin = offset_ray(sc.position, sc.true_normal, ls.direction);
                    shadow.pixel = ray.pixel;
                    shadow.direction = ls.direction;
                    shadow.t_max = ls.distance;
                    shadow.contribution = contribution;
                    shadow.visible = 0u;
                    let slot = atomicAdd(&counters[shadow_counter(depth)], 1u);
                    shadow_rays[slot] = shadow;
                \x7d else \x7b
                    accumulate(ray.pixel, contribution);
                \x7d
            \x7d
        \x7d
    \x7d

    let u = vec3f(rng_next2(&rng), rng_next(&rng));
    let s = bsdf_sample(closure, sc.normal, sc.wo, sc.backfacing, u);
    if !s.valid \x7b
        terminate(depth);
        return;
    \x7d
    var throughput = ray.throughput * s.weight;

    if depth + 1u >= frame.rr_depth \x7b
        let q = clamp(max(throughput.x, max(throughput.y, throughput.z)), 0.05, 0.95);
        if rng_next(&rng) >= q \x7b
            terminate(depth);
            return;
        \x7d
        throughput /= q;
    \x7d
    if !all(throughput == throughput) || all(throughput <= vec3f(0.0)) \x7b
        terminate(depth);
        return;
    \x7d

    var next: Ray;
    next.origin = offset_ray(sc.position, sc.true_normal, s.direction);
    next.direction = s.direction;
    next.pixel = ray.pixel;
    next.flags = s.flags;
    next.throughput = throughput;
    next.pdf = s.pdf;
    next.rng = rng;
    let slot = atomicAdd(&counters[ray_counter(depth + 1u)], 1u);
    rays[pass_info.next_base + slot] = next;
\x7d

// Shadow rays

@compute @workgroup_size(64)
fn trace_shadow(@builtin(global_invocation_id) gid: vec3u, @builtin(num_workgroups) groups: vec3u) \x7b
    let index = thread_index(gid, groups);
    if index >= atomicLoad(&counters[shadow_counter(pass_info.depth)]) \x7b
        return;
    \x7d
    let shadow = shadow_rays[index];
    let hit = intersect_scene(shadow.origin, shadow.direction, shadow.t_max, RAY_SHADOW, true);
    shadow_rays[index].visible = select(0u, 1u, hit.instance == NO_HIT);
\x7d

@compute @workgroup_size(64)
fn shade_shadow(@builtin(global_invocation_id) gid: vec3u, @builtin(num_workgroups) groups: vec3u) \x7b
    let index = thread_index(gid, groups);
    if index >= atomicLoad(&counters[shadow_counter(pass_info.depth)]) \x7b
        return;
    \x7d
    let shadow = shadow_rays[index];
    if shadow.visible != 0u \x7b
        accumulate(shadow.pixel, shadow.contribution);
    \x7d
\x7d

// Display

fn tonemap_hable_partial(x: vec3f) -> vec3f \x7b
    let a = 0.15;
    let b = 0.50;
    let c = 0.10;
    let d = 0.20;
    let e = 0.02;
    let f = 0.30;
    return ((x * (a * x + c * b) + d * e) / (x * (a * x + b) + d * f)) - e / f;
\x7d

fn tonemap(c: vec3f, mode: u32) -> vec3f \x7b
    switch mode \x7b
        case TONEMAP_HABLE: \x7b
            let white = tonemap_hable_partial(vec3f(11.2));
            return tonemap_hable_partial(c * 2.0) / white;
        \x7d
        case TONEMAP_ACES: \x7b
            let x = c * 0.6;
            return clamp((x * (2.51 * x + 0.03)) / (x * (2.43 * x + 0.59) + 0.14), vec3f(0.0), vec3f(1.0));
        \x7d
        default: \x7b
            return c;
        \x7d
    \x7d
\x7d

fn linear_to_srgb(c: vec3f) -> vec3f \x7b
    let lo = c * 12.92;
    let hi = 1.055 * pow(c, vec3f(1.0 / 2.4)) - 0.055;
    return select(hi, lo, c <= vec3f(0.0031308));
\x7d

@compute @workgroup_size(64)
fn resolve_image(@builtin(global_invocation_id) gid: vec3u, @builtin(num_workgroups) groups: vec3u) \x7b
    let index = thread_index(gid, groups);
    if index >= frame.width * frame.height \x7b
        return;
    \x7d
    var c = accumulation[index].rgb / f32(max(frame.samples, 1u));
    if frame.output_channel == CHANNEL_IMAGE \x7b
        c = tonemap(max(c * frame.exposure, vec3f(0.0)), frame.tonemapping);
    \x7d
    let encoded = linear_to_srgb(clamp(c, vec3f(0.0), vec3f(1.0)));
    textureStore(output_image, vec2i(i32(index % frame.width), i32(index / frame.width)), vec4f(encoded, 1.0));
\x7d
"

end Candela.Shader.Static
